import AwsMock.Sqs.Guards
import AwsMock.Sqs.Receive

/-! # The content of stored messages

The id, the body and the message attributes of a message are written once, by
the send. A condition on them that new messages meet is guarded by both
repositories.
-/

namespace AwsMock.Sqs

open Foundation Action BsonUtils

structure Content where
  messageId : String
  body : String
  messageAttributes : StringMap MessageAttribute

def Message.content (message : Message) : Content :=
  ⟨message.messageId, message.body, message.messageAttributes⟩

def Content.fromDocument (document : Document) : Except CoreException Content := do
  let messageAttributes ← readMessageAttributesField document "messageAttributes"
  return ⟨getStringValue document "messageId", getStringValue document "body", messageAttributes⟩

theorem content_of_fromDocument {message : Message} {document : Document}
    (hread : Message.fromDocument document = .ok message) :
    Content.fromDocument document = .ok message.content := by
  rw [Message.fromDocument, mapError_eq_ok, Message.readDocument] at hread
  simp only [bind_eq_ok] at hread
  obtain ⟨retries, -, size, -, reset, -, created, -, modified, -, messageAttributes, hread,
    attributes, -, hmessage⟩ := hread
  injection hmessage with hmessage
  subst hmessage
  rw [Content.fromDocument, hread]
  rfl

theorem Content.fromDocument_congr {document other : Document}
    (hfields : ∀ name ∈ ["messageId", "body", "messageAttributes"],
      other.get? name = document.get? name) :
    fromDocument other = fromDocument document := by
  simp only [fromDocument, readMessageAttributesField, getStringValue,
    hfields "messageId" (by simp), hfields "body" (by simp), hfields "messageAttributes" (by simp)]

theorem Content.fromDocument_toDocument (message : Message) (id : Value) :
    fromDocument (("_id", id) :: message.toDocument) = .ok message.content := by
  have hattributes : Document.get? "messageAttributes" (("_id", id) :: message.toDocument) =
      some (.document (messageAttributesDocument message.messageAttributes)) := by
    simp [Message.toDocument, Document.get?_cons]
  rw [fromDocument, readMessageAttributesField_eq hattributes]
  simp [getStringValue, Message.toDocument, Document.get?_cons, Message.content, pure,
    Except.pure, bind, Except.bind]

variable {good : Content → Prop} {drawn : Nat → Prop}

namespace MemoryRepository

section Queues

variable {holds : World MemoryStore → Prop}

def IgnoresQueues (holds : World MemoryStore → Prop) : Prop :=
  ∀ world queues, holds world → holds { world with store := { world.store with queues } }

theorem keeps_read {α : Type} (read : MemoryStore → α) :
    (Call.readStore read : MemoryCall α).Keeps holds :=
  keeps_gets _

theorem keeps_isDlq (queueArn : String) : (isDlq queueArn).Keeps holds :=
  Keeps.bind (keeps_read _) fun _ => keeps_pure _

variable (hignores : IgnoresQueues holds)
include hignores

theorem IgnoresQueues.keeps_writeQueues (queues : UnorderedMap String Queue) :
    (writeQueues queues).Keeps holds :=
  keeps_writeStore fun world hworld => hignores world queues hworld

theorem IgnoresQueues.keeps_getQueueBy (now : Time) (select : Queue → Bool) :
    (getQueueBy now select).Keeps holds := by
  apply Keeps.bind (keeps_read _)
  intro queues
  split
  · exact Keeps.bind (hignores.keeps_writeQueues _) fun _ => keeps_pure _
  · exact keeps_pure _

theorem IgnoresQueues.keeps_updateQueue (now : Time) (queue : Queue) :
    (updateQueue now queue).Keeps holds := by
  apply Keeps.scopedLock
  apply Keeps.bind (keeps_read _)
  intro queues
  split
  · exact Keeps.bind (hignores.keeps_writeQueues _) fun _ => keeps_pure _
  · exact keeps_pure _

end Queues

def HoldsContent (good : Content → Prop) (drawn : Nat → Prop) (world : World MemoryStore) : Prop :=
  drawn world.draws ∧ ∀ message ∈ world.store.messages.values, good message.content

theorem satisfies_readMessages :
    (readMessages : MemoryCall _).Satisfies (HoldsContent good drawn)
      (fun messages world => HoldsContent good drawn world ∧
        ∀ message ∈ messages.values, good message.content) (HoldsContent good drawn) :=
  satisfies_gets fun _ hworld => ⟨hworld, hworld.2⟩

theorem keeps_writeMessages {messages : UnorderedMap String Message}
    (hgood : ∀ message ∈ messages.values, good message.content) :
    (writeMessages messages).Keeps (HoldsContent good drawn) :=
  keeps_writeStore fun _ hworld => ⟨hworld.1, hgood⟩

theorem ignoresQueues_holdsContent : IgnoresQueues (HoldsContent good drawn) :=
  fun _ _ hworld => hworld

theorem good_eraseIf {messages : UnorderedMap String Message} (select : Message → Bool)
    (hgood : ∀ message ∈ messages.values, good message.content) :
    ∀ message ∈ (messages.eraseIf select).values, good message.content := by
  intro message hmessage
  rw [UnorderedMap.values_eraseIf] at hmessage
  exact hgood message (List.mem_of_mem_filter hmessage)

variable {message : Message}

theorem good_assign {messages : UnorderedMap String Message} (key : String)
    (hgood : ∀ other ∈ messages.values, good other.content) (hnew : good message.content) :
    ∀ other ∈ (messages.assign key message).values, good other.content := by
  intro other hother
  obtain ⟨entry, hentry, rfl⟩ := List.mem_map.mp hother
  rcases (UnorderedMap.mem_assignEntries messages.nodup).mp hentry with rfl | ⟨hold, -⟩
  · exact hnew
  · exact hgood _ (List.mem_map_of_mem hold)

theorem keeps_rewriteMessages {select : Message → Bool} {rewrite : Message → Message}
    (hrewrite : ∀ message, (rewrite message).content = message.content) :
    (rewriteMessages select rewrite).Keeps (HoldsContent good drawn) := by
  apply Keeps.scopedLock
  apply Keeps.bind_of satisfies_readMessages
  intro messages hgood
  rw [UnorderedMap.visit_countingBody]
  refine Keeps.bind (keeps_writeMessages fun message hmessage => ?_) fun _ => keeps_pure _
  rw [UnorderedMap.values_rewriteIf, mem_rewriteWhere] at hmessage
  obtain ⟨old, hold, rfl⟩ := hmessage
  split
  · rw [hrewrite]
    exact hgood old hold
  · exact hgood old hold

theorem satisfies_getMessageBy (now : Time) (select : Message → Bool)
    (hfresh : good (Message.fresh now).content) :
    (getMessageBy now select).Satisfies (HoldsContent good drawn)
      (fun message world => HoldsContent good drawn world ∧ good message.content)
      (HoldsContent good drawn) := by
  apply Satisfies.bind satisfies_readMessages
  intro messages
  split
  next key message hfind =>
    intro held world hworld
    have hgood : good message.content := by
      refine hworld.2 message (List.mem_map.mpr ⟨(key, message), ?_, rfl⟩)
      exact List.mem_of_find?_eq_some hfind
    exact ⟨⟨hworld.1.1, good_assign key hworld.2 hgood⟩, hgood⟩
  next => exact satisfies_pure fun world hworld => ⟨hworld.1, hfresh⟩

theorem taken_content {random : RandomSource} {reset : Time} {dlQueueArn : String}
    {maxRetries : Int} {draw : Nat} :
    (taken random reset dlQueueArn maxRetries draw message).content = message.content := by
  cases hdead : isDead dlQueueArn maxRetries (message.retries + 1) with
  | true => rw [taken_of_dead hdead]; rfl
  | false => rw [taken_of_alive hdead]; rfl

variable (random : RandomSource)

theorem satisfies_receiveMessages
    (hdrawn : ∀ draws later, draws ≤ later → drawn draws → drawn later)
    (now : Time) (queueArn : String) (visibility maxResult : Int) (dlQueueArn : String)
    (maxRetries : Int) :
    (receiveMessages random now queueArn visibility maxResult dlQueueArn maxRetries []).Satisfies
      (HoldsContent good drawn)
      (fun messageList world => HoldsContent good drawn world ∧
        ∀ message ∈ messageList, good message.content) (HoldsContent good drawn) := by
  intro held world hworld
  by_cases hheld : Mutex.sqsMessage ∈ held
  · rw [receiveMessages, run_scopedLock_held hheld]
    exact hworld
  rw [run_receiveMessages_memory hheld]
  have hold : ∀ message ∈ takenMessages queueArn maxResult 0 world.store.messages.values,
      good message.content := fun message htaken =>
    hworld.2 message (of_mem_takenMessages htaken).1
  refine ⟨⟨hdrawn _ _ (le_walk_draws _) hworld.1, fun message hmessage => ?_⟩,
    fun message hmessage => ?_⟩
  · rw [values_receivedStore] at hmessage
    rcases (of_mem_walk [] (hasRoom_zero maxResult)).1 hmessage with
      hmessage | ⟨old, htaken, draw, rfl⟩
    · exact hworld.2 message hmessage
    · rw [taken_content]
      exact hold old htaken
  · rcases (of_mem_walk [] (hasRoom_zero maxResult)).2 hmessage with
      hmessage | ⟨old, htaken, draw, rfl⟩
    · cases hmessage
    · rw [taken_content]
      exact hold old htaken

theorem keeps_deleteMessage (receiptHandle : String) :
    (deleteMessage receiptHandle).Keeps (HoldsContent good drawn) := by
  apply Keeps.scopedLock
  apply Keeps.bind_of satisfies_readMessages
  intro messages hgood
  exact Keeps.bind (keeps_writeMessages (good_eraseIf _ hgood)) fun _ => keeps_pure _

theorem satisfies_createMessage
    (hdrawn : ∀ draws later, draws ≤ later → drawn draws → drawn later)
    (hgood : good message.content) :
    (createMessage random message).Satisfies (HoldsContent good drawn)
      (fun stored world => HoldsContent good drawn world ∧ stored.content = message.content ∧
        stored ∈ world.store.messages.values) (HoldsContent good drawn) := by
  refine Satisfies.scopedLock ?_ fun _ => id
  have hdraw : (Call.draw : MemoryCall Nat).Keeps (HoldsContent good drawn) :=
    fun _ _ hworld => ⟨hdrawn _ _ (Nat.le_succ _) hworld.1, hworld.2⟩
  apply Satisfies.bind hdraw
  intro draw
  apply Satisfies.bind satisfies_readMessages
  intro messages held world hworld
  refine ⟨⟨hworld.1.1, good_assign _ hworld.2 hgood⟩, rfl, ?_⟩
  refine List.mem_map.mpr ⟨_, (UnorderedMap.mem_assignEntries messages.nodup).mpr (Or.inl rfl), rfl⟩

theorem keeps_updateMessage (now : Time) (hgood : good message.content) :
    (updateMessage now message).Keeps (HoldsContent good drawn) := by
  apply Keeps.scopedLock
  apply Keeps.bind_of satisfies_readMessages
  intro messages hmessages
  split
  · exact Keeps.bind (keeps_writeMessages (good_assign _ hmessages hgood)) fun _ => keeps_pure _
  · exact keeps_pure _

theorem guards_content {first : Nat} (hempty : good ⟨"", "", ∅⟩)
    (hfresh : ∀ draw body messageAttributes, first < draw →
      good ⟨random.uuid draw, body, messageAttributes⟩) :
    Guards random (memoryRepository random) (HoldsContent good (first < ·))
      (fun message => good message.content) (first < ·) := by
  have hdrawn : ∀ draws later, draws ≤ later → first < draws → first < later :=
    fun draws later hle hfirst => Nat.lt_of_lt_of_le hfirst hle
  have hdraw : (Call.draw : MemoryCall Nat).Satisfies (HoldsContent good (first < ·))
      (fun draw world => HoldsContent good (first < ·) world ∧ first < draw)
      (HoldsContent good (first < ·)) :=
    fun _ world hworld => ⟨⟨hdrawn _ _ (Nat.le_succ _) hworld.1, hworld.2⟩, hworld.1⟩
  exact {
    draw := hdraw
    good_of_fresh := by
      intro draw message hdraw hid
      rw [Message.content, hid]
      exact hfresh draw _ _ hdraw
    good_resent := fun _ _ => id
    queueUrlExists := fun _ _ => Keeps.bind (keeps_read _) fun _ => keeps_pure _
    queueArnExists := fun _ => Keeps.bind (keeps_read _) fun _ => keeps_pure _
    createQueue := by
      intro queue
      apply Keeps.scopedLock
      apply Keeps.bind (hdraw.weaken fun _ _ => And.left)
      intro draw
      apply Keeps.bind (keeps_read _)
      intro queues
      exact Keeps.bind (ignoresQueues_holdsContent.keeps_writeQueues _) fun _ => keeps_pure _
    getQueueByArn := fun now _ => ignoresQueues_holdsContent.keeps_getQueueBy now _
    getQueueByUrl := fun now _ _ => ignoresQueues_holdsContent.keeps_getQueueBy now _
    isDlq := keeps_isDlq
    listQueues := fun _ => Keeps.bind (keeps_read _) fun _ => keeps_pure _
    purgeQueue := by
      intro queueArn
      apply Keeps.scopedLock
      apply Keeps.bind_of satisfies_readMessages
      intro messages hgood
      exact Keeps.bind (keeps_writeMessages (good_eraseIf _ hgood)) fun _ => keeps_pure _
    updateQueue := ignoresQueues_holdsContent.keeps_updateQueue
    deleteQueue := by
      intro queue
      apply Keeps.scopedLock
      apply Keeps.bind (keeps_read _)
      intro queues
      exact Keeps.bind (ignoresQueues_holdsContent.keeps_writeQueues _) fun _ => keeps_pure _
    createMessage := fun _ hgood =>
      (satisfies_createMessage random hdrawn hgood).weaken fun _ _ => And.left
    messageExistsByMessageId := fun _ => Keeps.bind (keeps_read _) fun _ => keeps_pure _
    getMessageByMessageId := fun now _ => satisfies_getMessageBy now _ hempty
    updateMessage := fun now _ hgood => keeps_updateMessage now hgood
    receiveMessages := satisfies_receiveMessages random hdrawn
    resetMessages := fun _ _ _ => keeps_rewriteMessages fun _ => rfl
    resetDelayedMessages := fun _ _ _ => keeps_rewriteMessages fun _ => rfl
    redriveMessages := fun _ _ _ => keeps_rewriteMessages fun _ => rfl
    redriveMessage := fun _ _ _ _ => keeps_rewriteMessages fun _ => rfl
    messageRetention := by
      intro now queueArn retentionPeriod
      apply Keeps.scopedLock
      apply Keeps.bind (keeps_read _)
      intro messages
      refine keeps_foldlM _ (fun count message _ => ?_) 0
      refine Satisfies.ite (fun _ => ?_) fun _ => keeps_pure count
      exact Keeps.bind (keeps_deleteMessage _) fun _ => keeps_pure _
    countMessages := fun _ _ => Keeps.bind (keeps_read _) fun _ => keeps_pure _
    deleteMessages := by
      intro queueArn
      apply Keeps.scopedLock
      apply Keeps.bind_of satisfies_readMessages
      intro messages hgood
      exact Keeps.bind (keeps_writeMessages (good_eraseIf _ hgood)) fun _ => keeps_pure _
    deleteMessage := keeps_deleteMessage
    adjustMessageCounters := fun _ => Keeps.scopedLock (keeps_writeStore fun _ => id) }

end MemoryRepository

namespace MongoRepository

section Queues

variable {holds : World MongoStore → Prop}

def IgnoresQueues (holds : World MongoStore → Prop) : Prop :=
  ∀ world queues, holds world → holds { world with store := { world.store with queues } }

theorem keeps_readQueues : (readQueues : MongoCall _).Keeps holds := keeps_gets _

theorem keeps_readMessages : (readMessages : MongoCall _).Keeps holds := keeps_gets _

theorem keeps_getQueueBy (filter : Filter) (missing : String) :
    (getQueueBy filter missing).Keeps holds := by
  apply Keeps.bind keeps_readQueues
  intro queues
  split
  · exact keeps_ofExcept _
  · exact keeps_raise _

theorem keeps_isDlq (queueArn : String) : (isDlq queueArn).Keeps holds :=
  Keeps.bind keeps_readQueues fun _ => keeps_ofExcept _

variable (hignores : IgnoresQueues holds)
include hignores

theorem IgnoresQueues.keeps_writeQueues (queues : Collection) : (writeQueues queues).Keeps holds :=
  keeps_writeStore fun world hworld => hignores world queues hworld

theorem IgnoresQueues.keeps_updateQueue (now : Time) (queue : Queue) :
    (updateQueue now queue).Keeps holds := by
  apply Keeps.bind keeps_readQueues
  intro queues
  apply Keeps.bind (hignores.keeps_writeQueues _)
  intro _
  split
  · exact keeps_ofExcept _
  · exact keeps_pure _

end Queues

def GoodDocument (good : Content → Prop) (document : Document) : Prop :=
  ∀ content, Content.fromDocument document = .ok content → good content

def HoldsContent (good : Content → Prop) (drawn : Nat → Prop) (world : World MongoStore) : Prop :=
  drawn world.draws ∧ ∀ document ∈ world.store.messages, GoodDocument good document

def SparesContent (update : Update) : Prop :=
  ∀ name ∈ ["messageId", "body", "messageAttributes"], update.spares name = true

variable {message : Message}

theorem GoodDocument.of_fromDocument {document : Document}
    (hgood : GoodDocument good document) (hread : Message.fromDocument document = .ok message) :
    good message.content :=
  hgood _ (content_of_fromDocument hread)

theorem goodDocument_toDocument (hgood : good message.content) (id : Value) :
    GoodDocument good (("_id", id) :: message.toDocument) := by
  intro content hread
  rw [Content.fromDocument_toDocument] at hread
  injection hread with hcontent
  exact hcontent ▸ hgood

/-- What replaces a document is good with the `_id` and without. -/
theorem goodDocument_replace (hgood : good message.content) (document : Document) :
    GoodDocument good (match document.get? "_id" with
      | some id => ("_id", id) :: message.toDocument
      | none => message.toDocument) := by
  split
  next id _ => exact goodDocument_toDocument hgood id
  next =>
    intro content hread
    refine goodDocument_toDocument hgood (.scalar .null) content ?_
    rw [← hread]
    apply Content.fromDocument_congr
    simp [Document.get?_cons]

theorem GoodDocument.apply {document : Document} (hgood : GoodDocument good document)
    {update : Update} (hspares : SparesContent update) :
    GoodDocument good (update.apply document) := by
  intro content hread
  apply hgood
  rw [← hread]
  exact (Content.fromDocument_congr fun name hname => Update.get?_apply (hspares name hname)).symm

section Collections

variable {messages : Collection} {filter : Filter} {update : Update}
variable (hgood : ∀ document ∈ messages, GoodDocument good document)
include hgood

theorem good_updateMany (hspares : SparesContent update) :
    ∀ document ∈ messages.updateMany filter update, GoodDocument good document := by
  intro document hdocument
  obtain ⟨old, hold, rfl⟩ := mem_rewriteWhere.mp hdocument
  split
  · exact (hgood old hold).apply hspares
  · exact hgood old hold

theorem good_updateOne (hspares : SparesContent update) :
    ∀ document ∈ messages.updateOne filter update, GoodDocument good document := by
  intro document hdocument
  rcases of_mem_rewriteFirst hdocument with hold | ⟨old, hold, -, rfl⟩
  · exact hgood document hold
  · exact (hgood old hold).apply hspares

theorem good_deleteMany : ∀ document ∈ messages.deleteMany filter, GoodDocument good document :=
  fun document hdocument => hgood document (List.mem_of_mem_filter hdocument)

theorem good_deleteOne : ∀ document ∈ messages.deleteOne filter, GoodDocument good document :=
  fun document hdocument => hgood document (List.mem_of_mem_eraseP hdocument)

end Collections

theorem satisfies_readMessages :
    (readMessages : MongoCall _).Satisfies (HoldsContent good drawn)
      (fun messages world => HoldsContent good drawn world ∧
        ∀ document ∈ messages, GoodDocument good document) (HoldsContent good drawn) :=
  satisfies_gets fun _ hworld => ⟨hworld, hworld.2⟩

theorem keeps_writeMessages {messages : Collection}
    (hgood : ∀ document ∈ messages, GoodDocument good document) :
    (writeMessages messages).Keeps (HoldsContent good drawn) :=
  keeps_writeStore fun _ hworld => ⟨hworld.1, hgood⟩

theorem ignoresQueues_holdsContent : IgnoresQueues (HoldsContent good drawn) :=
  fun _ _ hworld => hworld

theorem keeps_updateMessages {filter : Filter} {update : Update} (hspares : SparesContent update) :
    (updateMessages filter update).Keeps (HoldsContent good drawn) := by
  apply Keeps.bind_of satisfies_readMessages
  intro messages hgood
  exact Keeps.bind (keeps_writeMessages (good_updateMany hgood hspares)) fun _ => keeps_pure _

theorem keeps_deleteMany (filter : Filter) :
    (do
      let messages ← readMessages
      writeMessages (messages.deleteMany filter)
      return (messages.countDocuments filter : Int)).Keeps (HoldsContent good drawn) := by
  apply Keeps.bind_of satisfies_readMessages
  intro messages hgood
  exact Keeps.bind (keeps_writeMessages (good_deleteMany hgood)) fun _ => keeps_pure _

theorem satisfies_getMessageBy (now : Time) (filter : Filter)
    (hempty : good (Message.fresh now).content) :
    (getMessageBy now filter).Satisfies (HoldsContent good drawn)
      (fun message world => HoldsContent good drawn world ∧ good message.content)
      (HoldsContent good drawn) := by
  apply Satisfies.bind satisfies_readMessages
  intro messages
  split
  next document hfind =>
    have hmem : document ∈ messages := List.mem_of_find?_eq_some hfind
    intro held world hworld
    refine ((satisfies_ofExcept (Message.fromDocument document)).weaken ?_) held world hworld.1
    exact fun message after hafter =>
      ⟨hafter.1, (hworld.2 document hmem).of_fromDocument hafter.2⟩
  next => exact satisfies_pure fun world hworld => ⟨hworld.1, hempty⟩

variable (random : RandomSource)

theorem satisfies_createMessage
    (hdrawn : ∀ draws later, draws ≤ later → drawn draws → drawn later)
    (hgood : good message.content) :
    (createMessage random message).Satisfies (HoldsContent good drawn)
      (fun stored world => HoldsContent good drawn world ∧ stored.content = message.content ∧
        withObjectId stored.oid stored.toDocument ∈ world.store.messages)
      (HoldsContent good drawn) := by
  have hdraw : (Call.draw : MongoCall Nat).Keeps (HoldsContent good drawn) :=
    fun _ _ hworld => ⟨hdrawn _ _ (Nat.le_succ _) hworld.1, hworld.2⟩
  apply Satisfies.bind hdraw
  intro draw
  apply Satisfies.bind satisfies_readMessages
  intro messages held world hworld
  refine ⟨⟨hworld.1.1, fun document hdocument => ?_⟩, rfl,
    List.mem_append_right _ (List.mem_singleton.mpr rfl)⟩
  rcases List.mem_append.mp hdocument with hold | hnew
  · exact hworld.2 document hold
  · rw [List.mem_singleton.mp hnew]
    exact goodDocument_toDocument hgood _

theorem keeps_updateMessage (now : Time) (hgood : good message.content) :
    (updateMessage now message).Keeps (HoldsContent good drawn) := by
  apply Keeps.bind_of satisfies_readMessages
  intro messages hmessages
  refine Keeps.bind (keeps_writeMessages fun document hdocument => ?_) fun _ => ?_
  · rcases of_mem_rewriteFirst hdocument with hold | ⟨old, -, -, rfl⟩
    · exact hmessages document hold
    · have hmodified : good { message with modified := now }.content := hgood
      exact goodDocument_replace hmodified old
  · split
    · exact keeps_ofExcept _
    · exact keeps_pure _

theorem keeps_adjustMessageCounters :
    adjustMessageCounters.Keeps (HoldsContent good drawn) := by
  rw [adjustMessageCounters]
  exact keeps_writeStore fun _ hworld => hworld

theorem sparesContent_claimUpdate (reset : Time) (receiptHandle : String) :
    SparesContent (claimUpdate reset receiptHandle) := by
  intro name hname
  simp only [List.mem_cons, List.not_mem_nil, or_false] at hname
  rcases hname with rfl | rfl | rfl <;> rfl

theorem sparesContent_deadLetterUpdate (dlQueueArn : String) :
    SparesContent (deadLetterUpdate dlQueueArn) := by
  intro name hname
  simp only [List.mem_cons, List.not_mem_nil, or_false] at hname
  rcases hname with rfl | rfl | rfl <;> rfl

theorem sparesContent_redriveUpdate (now : Time) (originalQueue : Queue) :
    SparesContent (redriveUpdate now originalQueue) := by
  intro name hname
  simp only [List.mem_cons, List.not_mem_nil, or_false] at hname
  rcases hname with rfl | rfl | rfl <;> rfl

theorem satisfies_receiveLoop
    (hdrawn : ∀ draws later, draws ≤ later → drawn draws → drawn later)
    (queueArn : String) (reset : Time) (maxResult : Int) (dlQueueArn : String) (maxRetries : Int)
    (fuel : Nat) (messageList : List Message)
    (hlist : ∀ message ∈ messageList, good message.content) :
    (receiveLoop random queueArn reset maxResult dlQueueArn maxRetries fuel
      messageList).Satisfies (HoldsContent good drawn)
      (fun result world => HoldsContent good drawn world ∧
        ∀ message ∈ result, good message.content) (HoldsContent good drawn) := by
  induction fuel generalizing messageList with
  | zero =>
    rw [receiveLoop]
    exact Satisfies.ite (fun _ => satisfies_outOfFuel fun _ => id)
      fun _ => satisfies_pure fun _ hworld => ⟨hworld, hlist⟩
  | succ fuel ih =>
    rw [receiveLoop]
    refine Satisfies.ite (fun _ => ?_) fun _ => satisfies_pure fun _ hworld => ⟨hworld, hlist⟩
    have hdraw : (Call.draw : MongoCall Nat).Keeps (HoldsContent good drawn) :=
      fun _ _ hworld => ⟨hdrawn _ _ (Nat.le_succ _) hworld.1, hworld.2⟩
    apply Satisfies.bind hdraw
    intro draw
    apply Satisfies.bind satisfies_readMessages
    intro messages held world hworld
    have hspares := sparesContent_claimUpdate reset (random.receiptHandle draw)
    have hclaimed : (writeMessages (messages.findOneAndUpdate (claimFilter queueArn)
        (claimUpdate reset (random.receiptHandle draw))).2).Keeps (HoldsContent good drawn) :=
      keeps_writeMessages (good_updateOne hworld.2 hspares)
    refine Satisfies.bind hclaimed (fun _ => ?_) held world hworld.1
    cases hfind : messages.findOne (claimFilter queueArn) with
    | none =>
      simp only [Collection.findOneAndUpdate, hfind, Option.map_none]
      exact satisfies_pure fun _ hafter => ⟨hafter, hlist⟩
    | some document =>
      simp only [Collection.findOneAndUpdate, hfind, Option.map_some]
      have hdocument := (hworld.2 document (List.mem_of_find?_eq_some hfind)).apply hspares
      apply Satisfies.bind (satisfies_ofExcept _)
      intro result held world hread
      have hresult := hdocument.of_fromDocument hread.2
      refine Satisfies.ite (fun _ => ?_) (fun _ => ?_) held world hread.1
      · apply Satisfies.bind satisfies_readMessages
        intro messages held world hworld
        refine Satisfies.bind (keeps_writeMessages (good_updateOne hworld.2
          (sparesContent_deadLetterUpdate dlQueueArn))) (fun _ => ?_) held world hworld.1
        exact ih messageList hlist
      · apply ih
        intro message hmessage
        rcases List.mem_append.mp hmessage with hold | hnew
        · exact hlist message hold
        · rw [List.mem_singleton.mp hnew]
          exact hresult

theorem guards_content (order : Option Value → Option Value → Bool)
    (fuel : Nat) {first : Nat} (hempty : good ⟨"", "", ∅⟩)
    (hfresh : ∀ draw body messageAttributes, first < draw →
      good ⟨random.uuid draw, body, messageAttributes⟩) :
    Guards random (mongoRepository random order fuel) (HoldsContent good (first < ·))
      (fun message => good message.content) (first < ·) := by
  have hdrawn : ∀ draws later, draws ≤ later → first < draws → first < later :=
    fun draws later hle hfirst => Nat.lt_of_lt_of_le hfirst hle
  have hdraw : (Call.draw : MongoCall Nat).Satisfies (HoldsContent good (first < ·))
      (fun draw world => HoldsContent good (first < ·) world ∧ first < draw)
      (HoldsContent good (first < ·)) :=
    fun _ world hworld => ⟨⟨hdrawn _ _ (Nat.le_succ _) hworld.1, hworld.2⟩, hworld.1⟩
  exact {
    draw := hdraw
    good_of_fresh := by
      intro draw message hdraw hid
      rw [Message.content, hid]
      exact hfresh draw _ _ hdraw
    good_resent := fun _ _ => id
    queueUrlExists := fun _ _ => Keeps.bind keeps_readQueues fun _ => keeps_pure _
    queueArnExists := fun _ => Keeps.bind keeps_readQueues fun _ => keeps_pure _
    createQueue := by
      intro queue
      apply Keeps.bind (hdraw.weaken fun _ _ => And.left)
      intro draw
      apply Keeps.bind keeps_readQueues
      intro queues
      exact Keeps.bind (ignoresQueues_holdsContent.keeps_writeQueues _) fun _ => keeps_pure _
    getQueueByArn := fun _ _ => keeps_getQueueBy _ _
    getQueueByUrl := fun _ _ _ => keeps_getQueueBy _ _
    isDlq := keeps_isDlq
    listQueues := by
      intro region
      apply Keeps.bind keeps_readQueues
      intro queues
      refine Keeps.bind ?_ fun _ => keeps_ofExcept _
      rw [findPage]
      split
      · exact keeps_pure _
      · exact keeps_raise _
    purgeQueue := fun _ => keeps_deleteMany _
    updateQueue := ignoresQueues_holdsContent.keeps_updateQueue
    deleteQueue := by
      intro queue
      apply Keeps.bind keeps_readQueues
      intro queues
      apply Keeps.bind (ignoresQueues_holdsContent.keeps_writeQueues _)
      intro _
      apply Keeps.bind_of satisfies_readMessages
      intro messages hgood
      exact Keeps.bind (keeps_writeMessages (good_deleteMany hgood)) fun _ => keeps_pure _
    createMessage := fun _ hgood =>
      (satisfies_createMessage random hdrawn hgood).weaken fun _ _ => And.left
    messageExistsByMessageId := fun _ => Keeps.bind keeps_readMessages fun _ => keeps_pure _
    getMessageByMessageId := fun now _ => satisfies_getMessageBy now _ hempty
    updateMessage := fun now _ hgood => keeps_updateMessage now hgood
    receiveMessages := fun _ _ _ _ _ _ => satisfies_receiveLoop random hdrawn _ _ _ _ _ fuel []
      fun _ hmessage => (List.not_mem_nil hmessage).elim
    resetMessages := by
      intro now queueArn visibility
      apply keeps_updateMessages
      intro name hname
      simp only [List.mem_cons, List.not_mem_nil, or_false] at hname
      rcases hname with rfl | rfl | rfl <;> rfl
    resetDelayedMessages := by
      intro now queueArn delay
      apply Keeps.bind_of satisfies_readMessages
      intro messages hgood
      refine Keeps.bind (keeps_writeMessages (good_updateMany hgood ?_)) fun _ => keeps_pure _
      intro name hname
      simp only [List.mem_cons, List.not_mem_nil, or_false] at hname
      rcases hname with rfl | rfl | rfl <;> rfl
    redriveMessages := fun now originalQueue _ =>
      keeps_updateMessages (sparesContent_redriveUpdate now originalQueue)
    redriveMessage := fun now originalQueue _ _ =>
      keeps_updateMessages (sparesContent_redriveUpdate now originalQueue)
    messageRetention := fun _ _ _ => keeps_deleteMany _
    countMessages := fun _ _ => Keeps.bind keeps_readMessages fun _ => keeps_pure _
    deleteMessages := fun _ => keeps_deleteMany _
    deleteMessage := by
      intro receiptHandle
      apply Keeps.bind_of satisfies_readMessages
      intro messages hgood
      exact Keeps.bind (keeps_writeMessages (good_deleteOne hgood)) fun _ => keeps_pure _
    adjustMessageCounters := fun _ => keeps_adjustMessageCounters }

end MongoRepository

end AwsMock.Sqs
