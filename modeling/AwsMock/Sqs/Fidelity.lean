import Mathlib.Algebra.Group.Nat.Defs
import AwsMock.Sqs.Content

/-! # What arrives of a sent message

The attributes a message is to be delivered with, the digest of attributes as
it is specified, and what a send and the receives after it make of them.
-/

namespace AwsMock.Sqs

open Foundation Action

inductive TransportValue where
  | text (value : String)
  | binary (bytes : List UInt8)
deriving DecidableEq, Repr

structure DeliveredAttribute where
  dataType : String
  value : TransportValue
deriving DecidableEq, Repr

def MessageAttribute.delivered (messageAttribute : MessageAttribute) : DeliveredAttribute where
  dataType := messageAttribute.dataType.toString
  value := if messageAttribute.dataType = .binary then .binary messageAttribute.binaryValue
    else .text messageAttribute.stringValue

def Dto.MessageAttribute.delivered (messageAttribute : Dto.MessageAttribute) :
    DeliveredAttribute where
  dataType := messageAttribute.dataType.toString
  value := if messageAttribute.dataType = .binary then .binary messageAttribute.binaryValue
    else .text messageAttribute.stringValue

def deliveredAttributes (messageAttributes : StringMap MessageAttribute) :
    StringMap DeliveredAttribute :=
  messageAttributes.map fun _ => MessageAttribute.delivered

/-- The attributes of a transfer object, as a consumer sees them. -/
def Dto.deliveredAttributes (messageAttributes : StringMap Dto.MessageAttribute) :
    StringMap DeliveredAttribute :=
  messageAttributes.map fun _ => Dto.MessageAttribute.delivered

/-- Whether attributes are those of a request and the defaults it does not set. -/
def AreMerged (request : Dto.SendMessageRequest) (queue : Queue)
    (attributes : StringMap DeliveredAttribute) : Prop :=
  ∀ name : String, attributes[name]? =
    (request.messageAttributes[name]?.map Dto.MessageAttribute.delivered).or
      (queue.defaultMessageAttributes[name]?.map MessageAttribute.delivered)

section Digest

def lengthBytes (length : Nat) : List UInt8 :=
  [3, 2, 1, 0].map fun place => UInt8.ofNat (length / 256 ^ place)

def lengthPrefixed (bytes : List UInt8) : List UInt8 := lengthBytes bytes.length ++ bytes

def TransportValue.digestBytes : TransportValue → List UInt8
  | .text value => 1 :: lengthPrefixed (bytesOf value)
  | .binary bytes => 2 :: lengthPrefixed bytes

/-- The bytes that are digested, as specified: in name order, the name, the type
and the value of every attribute, each with its length before it, and the
transport type before the value. -/
def digestBytes (attributes : StringMap DeliveredAttribute) : List UInt8 :=
  attributes.toList.flatMap fun entry =>
    lengthPrefixed (bytesOf entry.1) ++ lengthPrefixed (bytesOf entry.2.dataType) ++
      entry.2.value.digestBytes

def MessageAttributeType.IsTransported (dataType : MessageAttributeType) : Prop :=
  dataType = .string ∨ dataType = .number ∨ dataType = .binary

theorem getIntAsByteArray_eq (length : Nat) :
    SqsUtils.getIntAsByteArray length = lengthBytes length := by
  simp [SqsUtils.getIntAsByteArray, lengthBytes]

theorem lengthAndBytes_eq (text : String) :
    SqsUtils.lengthAndBytes text = lengthPrefixed (bytesOf text) := by
  rw [SqsUtils.lengthAndBytes, lengthPrefixed, getIntAsByteArray_eq]
  simp [bytesOf, String.length_toList]

theorem messageAttributeBytes_eq {messageAttribute : MessageAttribute} (name : String)
    (htype : messageAttribute.dataType.IsTransported) :
    SqsUtils.messageAttributeBytes name messageAttribute = lengthPrefixed (bytesOf name) ++
        lengthPrefixed (bytesOf messageAttribute.delivered.dataType) ++
        messageAttribute.delivered.value.digestBytes := by
  rw [SqsUtils.messageAttributeBytes, lengthAndBytes_eq, lengthAndBytes_eq]
  rcases htype with htype | htype | htype <;>
    simp [htype, MessageAttribute.delivered, TransportValue.digestBytes, lengthAndBytes_eq,
      getIntAsByteArray_eq, lengthPrefixed]

theorem createMd5OfMessageAttributes_eq (tools : Toolbox)
    {messageAttributes : StringMap MessageAttribute}
    (htypes : ∀ (name : String) messageAttribute, messageAttributes[name]? = some messageAttribute →
      messageAttribute.dataType.IsTransported) :
    SqsUtils.createMd5OfMessageAttributes tools messageAttributes =
      tools.md5 (digestBytes (deliveredAttributes messageAttributes)) := by
  rw [SqsUtils.createMd5OfMessageAttributes, digestBytes, deliveredAttributes,
    Std.ExtTreeMap.toList_map, List.flatMap_map]
  congr 1
  apply List.flatMap_congr
  intro entry hentry
  exact messageAttributeBytes_eq entry.1
    (htypes entry.1 entry.2 (Std.ExtTreeMap.mem_toList_iff_getElem?_eq_some.mp hentry))

end Digest

section Merge

variable {request : Dto.SendMessageRequest} {queue : Queue}

def storedAttributes (request : Dto.SendMessageRequest) : StringMap MessageAttribute :=
  Mapper.messageAttributesToEntityMap request.messageAttributes

/-- The requests whose attributes are delivered: the defaults add nothing, and
no binary value is there to be lost. -/
def Dto.SendMessageRequest.LosesNothing (request : Dto.SendMessageRequest) (queue : Queue) : Prop :=
  (∀ name ∈ queue.defaultMessageAttributes, name ∈ request.messageAttributes) ∧
    ∀ (name : String) messageAttribute, request.messageAttributes[name]? = some messageAttribute →
      messageAttribute.dataType = .binary → messageAttribute.binaryValue = []

theorem toString_fromString_toString (dataType : Dto.MessageAttributeDataType) :
    (MessageAttributeType.fromString dataType.toString).toString = dataType.toString := by
  cases dataType <;> decide

variable {dataType : Dto.MessageAttributeDataType}

theorem fromString_toString_eq_binary :
    MessageAttributeType.fromString dataType.toString = .binary ↔ dataType = .binary := by
  cases dataType <;> decide

theorem dtoType_fromString (dataType : Dto.MessageAttributeDataType) :
    Dto.MessageAttributeDataType.fromString dataType.toString = dataType := by
  cases dataType <;> decide

theorem delivered_messageAttributeToEntity {messageAttribute : Dto.MessageAttribute} :
    (Mapper.messageAttributeToEntity messageAttribute).delivered = messageAttribute.delivered ↔
      (messageAttribute.dataType = .binary → messageAttribute.binaryValue = []) := by
  by_cases hbinary : messageAttribute.dataType = .binary
  · simp [Mapper.messageAttributeToEntity, MessageAttribute.delivered,
      Dto.MessageAttribute.delivered, toString_fromString_toString, fromString_toString_eq_binary,
      hbinary]
  · simp [Mapper.messageAttributeToEntity, MessageAttribute.delivered,
      Dto.MessageAttribute.delivered, toString_fromString_toString, fromString_toString_eq_binary,
      hbinary]

theorem getElem?_deliveredAttributes (name : String) :
    (deliveredAttributes (storedAttributes request))[name]? =
      request.messageAttributes[name]?.map fun messageAttribute =>
        (Mapper.messageAttributeToEntity messageAttribute).delivered := by
  rw [deliveredAttributes, storedAttributes, Mapper.messageAttributesToEntityMap,
    Std.ExtTreeMap.getElem?_map, Std.ExtTreeMap.getElem?_map, Option.map_map]
  rfl

theorem areMerged_storedAttributes :
    AreMerged request queue (deliveredAttributes (storedAttributes request)) ↔
      request.LosesNothing queue := by
  simp only [AreMerged, getElem?_deliveredAttributes]
  constructor
  · intro hmerged
    constructor
    · intro name hdefault
      by_contra hmissing
      have hname := hmerged name
      rw [Std.ExtTreeMap.getElem?_eq_none hmissing] at hname
      rw [Std.ExtTreeMap.mem_iff_isSome_getElem?] at hdefault
      cases hvalue : queue.defaultMessageAttributes[name]? with
      | none => simp [hvalue] at hdefault
      | some value => simp [hvalue] at hname
    · intro name messageAttribute hattribute
      have hname := hmerged name
      rw [hattribute] at hname
      injection hname with hdelivered
      exact delivered_messageAttributeToEntity.mp hdelivered
  · rintro ⟨hdefaults, hbinary⟩ name
    cases hattribute : request.messageAttributes[name]? with
    | some messageAttribute =>
      have hdelivered := delivered_messageAttributeToEntity.mpr
        (hbinary name messageAttribute hattribute)
      simp [hdelivered]
    | none =>
      have hnone : queue.defaultMessageAttributes[name]? = none := by
        apply Std.ExtTreeMap.getElem?_eq_none
        intro hdefault
        have hmem := hdefaults name hdefault
        rw [Std.ExtTreeMap.mem_iff_isSome_getElem?, hattribute] at hmem
        cases hmem
      rw [hnone]
      rfl

theorem isTransported_fromString
    (htype : dataType = .string ∨ dataType = .number ∨ dataType = .binary) :
    (MessageAttributeType.fromString dataType.toString).IsTransported := by
  rcases htype with rfl | rfl | rfl
  · exact Or.inl (by decide)
  · exact Or.inr (Or.inl (by decide))
  · exact Or.inr (Or.inr (by decide))

def HasSentTypes (request : Dto.SendMessageRequest) : Prop :=
  ∀ (name : String) messageAttribute, request.messageAttributes[name]? = some messageAttribute →
    messageAttribute.dataType = .string ∨ messageAttribute.dataType = .number ∨
      messageAttribute.dataType = .binary

theorem isTransported_storedAttributes (htypes : HasSentTypes request) :
    ∀ (name : String) messageAttribute, (storedAttributes request)[name]? = some messageAttribute →
      messageAttribute.dataType.IsTransported := by
  intro name messageAttribute hstored
  rw [storedAttributes, Mapper.messageAttributesToEntityMap, Std.ExtTreeMap.getElem?_map,
    Option.map_eq_some_iff] at hstored
  obtain ⟨sent, hsent, rfl⟩ := hstored
  exact isTransported_fromString (htypes name sent hsent)

theorem delivered_messageAttributeToDto (messageAttribute : Dto.MessageAttribute) :
    (Mapper.messageAttributeToDto (Mapper.messageAttributeToEntity messageAttribute)).delivered =
      (Mapper.messageAttributeToEntity messageAttribute).delivered := by
  simp [Mapper.messageAttributeToDto, Mapper.messageAttributeToEntity,
    MessageAttribute.delivered, Dto.MessageAttribute.delivered, toString_fromString_toString,
    fromString_toString_eq_binary, dtoType_fromString]

theorem deliveredAttributes_toDtoMap :
    Dto.deliveredAttributes (Mapper.messageAttributesToDtoMap (storedAttributes request)) =
      deliveredAttributes (storedAttributes request) := by
  apply Std.ExtTreeMap.ext_getElem?
  intro name
  rw [getElem?_deliveredAttributes, Dto.deliveredAttributes, Mapper.messageAttributesToDtoMap,
    storedAttributes, Mapper.messageAttributesToEntityMap, Std.ExtTreeMap.getElem?_map,
    Std.ExtTreeMap.getElem?_map, Std.ExtTreeMap.getElem?_map, Option.map_map, Option.map_map]
  congr 1
  funext messageAttribute
  exact delivered_messageAttributeToDto messageAttribute

end Merge

section Send

structure StoreView (Store : Type) where
  messages : Store → List Message
  messageIds : Store → List String

def MemoryStore.view : StoreView MemoryStore where
  messages store := store.messages.values
  messageIds store := store.messages.values.map Message.messageId

def MongoStore.view : StoreView MongoStore where
  messages store := store.messages.filterMap fun document =>
    (Message.fromDocument document).toOption
  messageIds store := store.messages.map fun document =>
    BsonUtils.getStringValue document "messageId"

variable {Store : Type} (context : Context) (db : Repository Store) (view : StoreView Store)

structure SendStores (now : Time) (request : Dto.SendMessageRequest) (before : World Store)
    (queue updated : Queue) (message : Message) (stored : World Store) : Prop where
  found : ∃ middle, (db.getQueueByArn now
    (AwsUtils.convertToArn context.config request.region request.queueUrl)).run [] before =
      .returns queue middle
  run : (Service.storeMessage context db now
    (AwsUtils.convertToArn context.config request.region request.queueUrl) request).run [] before =
      .returns (updated, message) stored
  unused : ∀ messageId ∈ view.messageIds before.store, ∀ draw, before.draws ≤ draw →
    messageId ≠ context.random.uuid draw

/-- The worlds after a message is stored: that of the insertion, and those after
the rest of the send and any number of operations. -/
def FollowsSend (updated : Queue) (message : Message) (stored after : World Store) : Prop :=
  after = stored ∨ Reaches context db
    ((Service.completeSend context db updated.arn message).run [] stored).after after

def IsDelivery (request : Dto.SendMessageRequest) (queue : Queue) (body : String)
    (attributes : StringMap DeliveredAttribute) : Prop :=
  body = request.body ∧ AreMerged request queue attributes

/-- A message arrives as it was sent: it is stored so, stays so, is received so,
and the digests reported are those of its attributes. -/
structure ArrivesAsSent (request : Dto.SendMessageRequest) (queue updated : Queue)
    (message : Message) (stored : World Store) : Prop where
  present : ∃ other ∈ view.messages stored.store, other.messageId = message.messageId
  kept : ∀ after, FollowsSend context db updated message stored after →
    ∀ other ∈ view.messages after.store, other.messageId = message.messageId →
      IsDelivery request queue other.body (deliveredAttributes other.messageAttributes)
  responded : ∀ response after,
    (Service.completeSend context db updated.arn message).run [] stored = .returns response after →
    response.md5MessageAttributes =
      context.tools.md5 (digestBytes (deliveredAttributes message.messageAttributes))
  received : ∀ after, FollowsSend context db updated message stored after →
    ∀ now later receive response last,
      (Service.receiveMessages context db now later receive).run [] after = .returns response last →
      ∀ dto ∈ response.messageList, dto.messageId = message.messageId →
        IsDelivery request queue dto.body (Dto.deliveredAttributes dto.messageAttributes) ∧
          dto.md5OfMessageAttributes =
            context.tools.md5 (digestBytes (Dto.deliveredAttributes dto.messageAttributes))

variable {context db view}
variable {now : Time} {request : Dto.SendMessageRequest} {before stored : World Store}
variable {queue updated : Queue} {message : Message}

/-- The content of the message a request becomes when its id is drawn. -/
def sentContent (random : RandomSource) (draw : Nat) (request : Dto.SendMessageRequest) : Content :=
  ⟨random.uuid draw, request.body, storedAttributes request⟩

def Content.respects (sent content : Content) : Prop :=
  content.messageId = sent.messageId → content = sent

theorem respects_of_fresh {random : RandomSource} {first draw : Nat} (hdraw : first < draw)
    (body : String) (messageAttributes : StringMap MessageAttribute) :
    (sentContent random first request).respects ⟨random.uuid draw, body, messageAttributes⟩ :=
  fun hid => absurd (random.uuid_injective hid) (Nat.ne_of_gt hdraw)

theorem respects_empty {random : RandomSource} {first : Nat} :
    (sentContent random first request).respects ⟨"", "", ∅⟩ :=
  fun hid => absurd hid.symm (random.uuid_ne_empty first)

theorem body_sendMessageRequestToEntity {tools : Toolbox} {config : Configuration}
    (hentity : Mapper.sendMessageRequestToEntity config tools now request = .ok message) :
    message.body = request.body := by
  rw [Mapper.sendMessageRequestToEntity] at hentity
  simp only [bind_eq_ok] at hentity
  obtain ⟨_, -, hmessage⟩ := hentity
  injection hmessage with hmessage
  rw [← hmessage]

theorem content_of_run_storeMessage {queueArn : String}
    (hrun : (Service.storeMessage context db now queueArn request).run [] before =
      .returns (updated, message) stored) :
    ∃ found middle world sent,
      (db.getQueueByArn now queueArn).run [] before = .returns found middle ∧
      (db.updateQueue now (Service.countedQueue found)).run [] middle = .returns updated world ∧
      sent.content = sentContent context.random world.draws request ∧
      (db.createMessage sent).run [] ⟨world.store, world.draws + 2⟩ =
        .returns message stored := by
  obtain ⟨found, middle, entity, world, hfound, hentity, hupdated, hcreated⟩ :=
    exists_of_run_storeMessage hrun
  refine ⟨found, middle, world, _, hfound, hupdated, ?_, hcreated⟩
  have hbody : (Service.scheduledMessage now found request entity).body = request.body := by
    rw [← body_sendMessageRequestToEntity hentity, Service.scheduledMessage]
    simp only
    split <;> rfl
  rw [Message.content, sentContent, ← hbody]
  rfl

theorem md5MessageAttributes_of_run {queueArn : String} {response : Dto.SendMessageResponse}
    (hrun : (Service.completeSend context db queueArn message).run [] before =
      .returns response stored) :
    response.md5MessageAttributes =
      SqsUtils.createMd5OfMessageAttributes context.tools message.messageAttributes := by
  rw [Service.completeSend] at hrun
  obtain ⟨_, _, -, hdraws⟩ := run_bind_eq_returns.mp hrun
  simp only [run_bind, Call.run_draw, Outcome.andThen_returns] at hdraws
  obtain ⟨hresponse, -⟩ := Call.run_ofExcept_eq_returns.mp hdraws
  rw [Mapper.sendMessageResponseToDto] at hresponse
  obtain ⟨_, -, hfields⟩ := bind_eq_ok.mp hresponse
  injection hfields with hfields
  rw [← hfields]

theorem arrivesAsSent_iff_of_guards {holds : World Store → Prop} {fresh : Nat → Prop}
    {draw : Nat}
    (guards : Guards context.random db holds
      (fun other => (sentContent context.random draw request).respects other.content) fresh)
    (hview : ∀ world, holds world → ∀ other ∈ view.messages world.store,
      (sentContent context.random draw request).respects other.content)
    (hstored : holds stored)
    (hcontent : message.content = sentContent context.random draw request)
    (hpresent : ∃ other ∈ view.messages stored.store, other.messageId = message.messageId)
    (htypes : HasSentTypes request) :
    ArrivesAsSent context db view request queue updated message stored ↔
      request.LosesNothing queue := by
  have hid : message.messageId = context.random.uuid draw := congrArg Content.messageId hcontent
  have hbody : ∀ other : Message, other.content = sentContent context.random draw request →
      other.body = request.body := fun other => congrArg Content.body
  have hattributes : ∀ other : Message, other.content = sentContent context.random draw request →
      other.messageAttributes = storedAttributes request :=
    fun other => congrArg Content.messageAttributes
  have hfollows : ∀ after, FollowsSend context db updated message stored after → holds after := by
    rintro after (rfl | hreaches)
    · exact hstored
    · exact guards.of_reaches context rfl hreaches
        ((guards.keeps_completeSend context updated.arn message).after hstored)
  constructor
  · intro harrives
    obtain ⟨other, hother, hsame⟩ := harrives.present
    have hkept := (harrives.kept stored (Or.inl rfl) other hother hsame).2
    rwa [hattributes other (hview stored hstored other hother (hsame.trans hid)),
      areMerged_storedAttributes] at hkept
  · intro hlossless
    have hmerged := areMerged_storedAttributes.mpr hlossless
    have hdigest := createMd5OfMessageAttributes_eq context.tools
      (isTransported_storedAttributes htypes)
    refine ⟨hpresent, ?_, ?_, ?_⟩
    · intro after hafter other hother hsame
      have hother' := hview after (hfollows after hafter) other hother (hsame.trans hid)
      rw [IsDelivery, hbody other hother', hattributes other hother']
      exact ⟨rfl, hmerged⟩
    · intro response after hrun
      rw [md5MessageAttributes_of_run hrun, hattributes message hcontent, hdigest]
    · intro after hafter now later receive response last hrun dto hdto hsame
      obtain ⟨-, hgood⟩ := (guards.satisfies_receiveMessages context now later receive).of_returns
        (hfollows after hafter) hrun
      obtain ⟨received, hreceived, rfl⟩ := hgood dto hdto
      have hsent := hreceived (hsame.trans hid)
      have hlist := hattributes received hsent
      refine ⟨⟨hbody received hsent, ?_⟩, ?_⟩
      · simp only [Mapper.messageToDto]
        rw [hlist, deliveredAttributes_toDtoMap]
        exact hmerged
      · simp only [Mapper.messageToDto]
        rw [hlist, deliveredAttributes_toDtoMap]
        exact hdigest

end Send

section Backends

variable {context : Context} {now : Time} {request : Dto.SendMessageRequest}
variable {queue updated : Queue} {message : Message}

theorem arrivesAsSent_memory {before stored : World MemoryStore}
    (hstores : SendStores context (memoryRepository context.random) MemoryStore.view now request
      before queue updated message stored)
    (htypes : HasSentTypes request) :
    ArrivesAsSent context (memoryRepository context.random) MemoryStore.view request queue updated
        message stored ↔ request.LosesNothing queue := by
  obtain ⟨found, middle, world, sent, hfound, hupdated, hsent, hcreated⟩ :=
    content_of_run_storeMessage hstores.run
  have hbefore : MemoryRepository.HoldsContent
      (sentContent context.random before.draws request).respects (· = before.draws) before := by
    refine ⟨rfl, fun other hother hid => absurd hid ?_⟩
    exact hstores.unused other.messageId (List.mem_map_of_mem hother) before.draws (Nat.le_refl _)
  have hmiddle := Satisfies.of_returns (MemoryRepository.ignoresQueues_holdsContent.keeps_getQueueBy now _) hbefore hfound
  have hworld := Satisfies.of_returns (MemoryRepository.ignoresQueues_holdsContent.keeps_updateQueue now _) hmiddle hupdated
  rw [hworld.1] at hsent hcreated
  have hdrawn : MemoryRepository.HoldsContent
      (sentContent context.random before.draws request).respects (before.draws < ·)
      ⟨world.store, before.draws + 2⟩ := ⟨Nat.lt_add_of_pos_right (by decide), hworld.2⟩
  obtain ⟨hstored, hcontent, hmem⟩ := Satisfies.of_returns
    (MemoryRepository.satisfies_createMessage context.random
      (fun draws later hle hdraws => Nat.lt_of_lt_of_le hdraws hle) fun _ => hsent)
    hdrawn hcreated
  exact arrivesAsSent_iff_of_guards
    (MemoryRepository.guards_content context.random respects_empty fun _ _ _ hdraw =>
      respects_of_fresh hdraw _ _) (fun world hholds => hholds.2) hstored (hcontent.trans hsent)
    ⟨message, hmem, rfl⟩ htypes

theorem arrivesAsSent_mongo {order : Option Value → Option Value → Bool} {fuel : Nat}
    {before stored : World MongoStore}
    (hstores : SendStores context (mongoRepository context.random order fuel) MongoStore.view now
      request before queue updated message stored)
    (htypes : HasSentTypes request) :
    ArrivesAsSent context (mongoRepository context.random order fuel) MongoStore.view request queue
        updated message stored ↔ request.LosesNothing queue := by
  obtain ⟨found, middle, world, sent, hfound, hupdated, hsent, hcreated⟩ :=
    content_of_run_storeMessage hstores.run
  have hbefore : MongoRepository.HoldsContent
      (sentContent context.random before.draws request).respects (· = before.draws) before := by
    refine ⟨rfl, fun document hdocument content hread hid => absurd hid ?_⟩
    have hcontent : content.messageId = BsonUtils.getStringValue document "messageId" := by
      obtain ⟨_, -, hfields⟩ := bind_eq_ok.mp hread
      injection hfields with hfields
      rw [← hfields]
    rw [hcontent]
    exact hstores.unused _ (List.mem_map_of_mem hdocument) before.draws (Nat.le_refl _)
  have hmiddle := Satisfies.of_returns (MongoRepository.keeps_getQueueBy _ _) hbefore hfound
  have hworld := Satisfies.of_returns (MongoRepository.ignoresQueues_holdsContent.keeps_updateQueue now _) hmiddle hupdated
  rw [hworld.1] at hsent hcreated
  have hdrawn : MongoRepository.HoldsContent
      (sentContent context.random before.draws request).respects (before.draws < ·)
      ⟨world.store, before.draws + 2⟩ := ⟨Nat.lt_add_of_pos_right (by decide), hworld.2⟩
  obtain ⟨hstored, hcontent, hmem⟩ := Satisfies.of_returns
    (MongoRepository.satisfies_createMessage context.random
      (fun draws later hle hdraws => Nat.lt_of_lt_of_le hdraws hle) fun _ => hsent)
    hdrawn hcreated
  have hview : ∀ world, MongoRepository.HoldsContent
      (sentContent context.random before.draws request).respects (before.draws < ·) world →
      ∀ other ∈ MongoStore.view.messages world.store,
        (sentContent context.random before.draws request).respects other.content := by
    intro world hholds other hother
    obtain ⟨document, hdocument, hread⟩ := List.mem_filterMap.mp hother
    refine (hholds.2 document hdocument).of_fromDocument ?_
    cases hresult : Message.fromDocument document with
    | ok read => rw [hresult] at hread; exact congrArg Except.ok (Option.some.inj hread)
    | error exn => rw [hresult] at hread; cases hread
  have hpresent : ∃ other ∈ MongoStore.view.messages stored.store,
      other.messageId = message.messageId := by
    have hread := (message.storedAs_settled message.oid).fromDocument_eq
    refine ⟨{ message.settled with oid := message.oid }.reread,
      List.mem_filterMap.mpr ⟨_, hmem, ?_⟩, rfl⟩
    rw [MongoRepository.withObjectId, hread]
    rfl
  exact arrivesAsSent_iff_of_guards
    (MongoRepository.guards_content context.random order fuel respects_empty fun _ _ _ hdraw =>
      respects_of_fresh hdraw _ _) hview hstored (hcontent.trans hsent) hpresent htypes

theorem types_helloRequest (name : String) (messageAttribute : Dto.MessageAttribute)
    (hattribute : helloRequest.messageAttributes[name]? = some messageAttribute) :
    messageAttribute.dataType = .string ∨ messageAttribute.dataType = .number ∨
      messageAttribute.dataType = .binary := by
  simp [helloRequest] at hattribute

def taggedQueue : Queue :=
  { orderQueue with
    defaultMessageAttributes :=
      (∅ : StringMap MessageAttribute).insert "source" { stringValue := "shop" } }

end Backends

end AwsMock.Sqs
