import AwsMock.Sqs.Operations

/-! # Conditions that repositories guard

A condition on worlds that every function of a repository keeps, as long as the
messages written to it are good, and then also hands out good messages only.
The service and the periodic reset keep such a condition too.
-/

namespace AwsMock.Sqs

open Foundation Action

/-- The condition `holds` is kept by every function of a repository, and
messages go in and out good. A message with a fresh id is good, and a good
message stays good when it is sent again. -/
structure Guards {Store : Type} (random : RandomSource) (db : Repository Store)
    (holds : World Store → Prop) (good : Message → Prop) (fresh : Nat → Prop) : Prop where
  draw : (Call.draw : Call Mutex Store Nat).Satisfies holds
    (fun draw world => holds world ∧ fresh draw) holds
  good_of_fresh : ∀ draw message, fresh draw → message.messageId = random.uuid draw → good message
  good_resent : ∀ message reset, good message →
    good { message with status := .initial, retries := 0, reset }
  queueUrlExists : ∀ region queueUrl, (db.queueUrlExists region queueUrl).Keeps holds
  queueArnExists : ∀ queueArn, (db.queueArnExists queueArn).Keeps holds
  createQueue : ∀ queue, (db.createQueue queue).Keeps holds
  getQueueByArn : ∀ now queueArn, (db.getQueueByArn now queueArn).Keeps holds
  getQueueByUrl : ∀ now region queueUrl, (db.getQueueByUrl now region queueUrl).Keeps holds
  isDlq : ∀ queueArn, (db.isDlq queueArn).Keeps holds
  listQueues : ∀ region, (db.listQueues region).Keeps holds
  purgeQueue : ∀ queueArn, (db.purgeQueue queueArn).Keeps holds
  updateQueue : ∀ now queue, (db.updateQueue now queue).Keeps holds
  deleteQueue : ∀ queue, (db.deleteQueue queue).Keeps holds
  createMessage : ∀ message, good message → (db.createMessage message).Keeps holds
  messageExistsByMessageId : ∀ messageId, (db.messageExistsByMessageId messageId).Keeps holds
  getMessageByMessageId : ∀ now messageId, (db.getMessageByMessageId now messageId).Satisfies
    holds (fun message world => holds world ∧ good message) holds
  updateMessage : ∀ now message, good message → (db.updateMessage now message).Keeps holds
  receiveMessages : ∀ now queueArn visibility maxResult dlQueueArn maxRetries,
    (db.receiveMessages now queueArn visibility maxResult dlQueueArn maxRetries []).Satisfies
      holds (fun messageList world => holds world ∧ ∀ message ∈ messageList, good message) holds
  resetMessages : ∀ now queueArn visibility, (db.resetMessages now queueArn visibility).Keeps holds
  resetDelayedMessages : ∀ now queueArn delay,
    (db.resetDelayedMessages now queueArn delay).Keeps holds
  redriveMessages : ∀ now originalQueue dlqQueue,
    (db.redriveMessages now originalQueue dlqQueue).Keeps holds
  redriveMessage : ∀ now originalQueue dlqQueue messageId,
    (db.redriveMessage now originalQueue dlqQueue messageId).Keeps holds
  messageRetention : ∀ now queueArn retentionPeriod,
    (db.messageRetention now queueArn retentionPeriod).Keeps holds
  countMessages : ∀ queueArn textPrefix, (db.countMessages queueArn textPrefix).Keeps holds
  deleteMessages : ∀ queueArn, (db.deleteMessages queueArn).Keeps holds
  deleteMessage : ∀ receiptHandle, (db.deleteMessage receiptHandle).Keeps holds
  adjustMessageCounters : ∀ now, (db.adjustMessageCounters now).Keeps holds

section Calls

variable {Store α : Type} {holds : World Store → Prop}

variable (result : Except CoreException α)

theorem satisfies_ofExcept :
    (Call.ofExcept result : Call Mutex Store α).Satisfies holds
      (fun value world => holds world ∧ result = .ok value) holds := by
  cases result with
  | ok value => exact satisfies_pure fun world hworld => ⟨hworld, rfl⟩
  | error exn => exact satisfies_raise fun _ => id

theorem keeps_ofExcept :
    (Call.ofExcept result : Call Mutex Store α).Keeps holds :=
  (satisfies_ofExcept result).weaken fun _ _ => And.left

theorem keeps_writeStore {write : Store → Store}
    (hwrite : ∀ world, holds world → holds { world with store := write world.store }) :
    (Call.writeStore write : Call Mutex Store Unit).Keeps holds :=
  fun _ world => hwrite world

end Calls

namespace Guards

variable {Store : Type} {random : RandomSource} {db : Repository Store}
variable {holds : World Store → Prop} {good : Message → Prop} {fresh : Nat → Prop}
variable (guards : Guards random db holds good fresh)

include guards

theorem keeps_draw : (Call.draw : Call Mutex Store Nat).Keeps holds :=
  guards.draw.weaken fun _ _ => And.left

variable (context : Context)

variable (now : Time)

theorem keeps_createQueue (request : Dto.CreateQueueRequest) :
    (Service.createQueue context db now request).Keeps holds := by
  rw [Service.createQueue]
  apply Keeps.bind (guards.queueArnExists _)
  intro found
  refine Satisfies.ite (fun _ => ?_) fun _ => Keeps.rethrow ?_
  · exact Keeps.bind (guards.getQueueByArn now _) fun _ => keeps_pure _
  · apply Keeps.bind (keeps_ofExcept _)
    intro queue
    exact Keeps.bind (guards.createQueue queue) fun _ => keeps_pure _

theorem keeps_deleteQueue (request : Dto.DeleteQueueRequest) :
    (Service.deleteQueue db now request).Keeps holds := by
  rw [Service.deleteQueue]
  apply Keeps.bind (guards.queueUrlExists _ _)
  intro found
  refine Satisfies.ite (fun _ => Keeps.rethrow ?_) fun _ => keeps_raise _
  apply Keeps.bind (guards.deleteMessages _)
  intro _
  exact Keeps.bind (guards.deleteQueue _) fun _ => keeps_pure _

theorem keeps_checkLambdaNotifications (queueArn : String) (message : Message) :
    (Service.checkLambdaNotifications context db queueArn message).Keeps holds := by
  apply keeps_forM
  intro lambda _
  apply Keeps.bind (keeps_ofExcept _)
  intro result
  refine Satisfies.ite (fun _ => ?_) fun _ => keeps_pure ()
  exact Keeps.bind (guards.deleteMessage _) fun _ => keeps_pure ()

theorem keeps_storeMessage (hrandom : context.random = random) (now : Time) (queueArn : String)
    (request : Dto.SendMessageRequest) :
    (Service.storeMessage context db now queueArn request).Keeps holds := by
  rw [Service.storeMessage]
  apply Keeps.bind (guards.getQueueByArn now _)
  intro queue
  apply Keeps.bind (keeps_ofExcept _)
  intro message
  apply Keeps.bind (guards.updateQueue now _)
  intro updated
  -- The message id is fresh, so the new message is good whatever it contains.
  apply Keeps.bind_of guards.draw
  intro draw hfresh
  apply Keeps.bind guards.keeps_draw
  intro handleDraw
  refine Keeps.bind (guards.createMessage _ (guards.good_of_fresh draw _ hfresh ?_))
    fun _ => keeps_pure _
  rw [← hrandom]
  rfl

theorem keeps_completeSend (queueArn : String) (message : Message) :
    (Service.completeSend context db queueArn message).Keeps holds := by
  rw [Service.completeSend]
  apply Keeps.bind (guards.keeps_checkLambdaNotifications context queueArn message)
  intro _
  apply Keeps.bind guards.keeps_draw
  intro _
  apply Keeps.bind guards.keeps_draw
  intro _
  apply Keeps.bind guards.keeps_draw
  intro _
  exact keeps_ofExcept _

theorem keeps_sendMessage (hrandom : context.random = random) (now : Time)
    (request : Dto.SendMessageRequest) :
    (Service.sendMessage context db now request).Keeps holds := by
  rw [Service.sendMessage]
  apply Keeps.bind (guards.queueArnExists _)
  intro found
  refine Satisfies.ite (fun _ => keeps_raise _) fun _ => Keeps.rethrow ?_
  apply Keeps.bind (guards.keeps_storeMessage context hrandom now _ request)
  intro stored
  exact guards.keeps_completeSend context _ _

theorem satisfies_poll (queue : Queue) (maxMessages start waitTimeSeconds : Int)
    (later : List Time) :
    (Service.poll db queue maxMessages start waitTimeSeconds later).Satisfies holds
      (fun messageList world => holds world ∧ ∀ message ∈ messageList, good message) holds := by
  induction later with
  | nil => exact satisfies_outOfFuel fun _ => id
  | cons now later ih =>
    rw [Service.poll]
    refine Satisfies.ite (fun _ => ?_) fun _ =>
      satisfies_pure fun world hworld => ⟨hworld, fun _ hmessage =>
        (List.not_mem_nil hmessage).elim⟩
    apply Satisfies.bind (guards.receiveMessages _ _ _ _ _ _)
    intro messageList
    refine Satisfies.ite (fun _ => ?_) fun _ => satisfies_pure fun _ => id
    exact fun held world hworld => ih held world hworld.1

theorem satisfies_receiveMessages (later : List Time)
    (request : Dto.ReceiveMessageRequest) :
    (Service.receiveMessages context db now later request).Satisfies holds
      (fun response world => holds world ∧ ∀ dto ∈ response.messageList, ∃ message,
        good message ∧ dto = Mapper.messageToDto context.config context.tools message) holds := by
  rw [Service.receiveMessages]
  apply Satisfies.bind (guards.queueArnExists _)
  intro found
  refine Satisfies.ite (fun _ => satisfies_raise fun _ => id) fun _ => Satisfies.rethrow ?_
  apply Satisfies.bind (guards.getQueueByArn now _)
  intro queue
  have hrespond : ∀ messageList : List Message, (pure ⟨request.requestId,
          messageList.map (Mapper.messageToDto context.config context.tools)⟩ :
        Call Mutex Store Dto.ReceiveMessageResponse).Satisfies
        (fun world => holds world ∧ ∀ message ∈ messageList, good message)
        (fun response world => holds world ∧ ∀ dto ∈ response.messageList, ∃ message,
          good message ∧ dto = Mapper.messageToDto context.config context.tools message)
        holds := by
    intro messageList
    refine satisfies_pure fun world hworld => ⟨hworld.1, fun dto hdto => ?_⟩
    obtain ⟨message, hmessage, rfl⟩ := List.mem_map.mp hdto
    exact ⟨message, hworld.2 message hmessage, rfl⟩
  refine Satisfies.ite (fun _ => ?_) fun _ => ?_
  · exact Satisfies.bind (guards.receiveMessages _ _ _ _ _ _) hrespond
  · exact Satisfies.bind (guards.satisfies_poll queue _ _ _ _) hrespond

theorem keeps_purgeQueue (request : Dto.PurgeQueueRequest) :
    (Service.purgeQueue context db now request).Keeps holds := by
  rw [Service.purgeQueue]
  apply Keeps.bind (guards.queueUrlExists _ _)
  intro found
  refine Satisfies.ite (fun _ => Keeps.rethrow ?_) fun _ => keeps_raise _
  apply Keeps.bind (guards.purgeQueue _)
  intro deleted
  apply Keeps.bind (guards.getQueueByUrl now _ _)
  intro queue
  exact Keeps.bind (guards.updateQueue now _) fun _ => keeps_pure _

theorem keeps_resendMessage (request : Dto.ResendMessageRequest) :
    (Service.resendMessage context db now request).Keeps holds := by
  rw [Service.resendMessage]
  apply Keeps.bind (guards.messageExistsByMessageId _)
  intro found
  refine Satisfies.ite (fun _ => Keeps.rethrow ?_) fun _ => keeps_raise _
  -- The message that is written back is the stored one, sent again.
  apply Keeps.bind_of (guards.getMessageByMessageId now _)
  intro message hgood
  apply Keeps.bind (guards.getQueueByArn now _)
  intro queue
  apply Keeps.bind (keeps_ofExcept _)
  intro visibility
  apply Keeps.bind (guards.updateMessage now _ (guards.good_resent message _ hgood))
  intro updated
  apply Keeps.bind (guards.updateQueue now _)
  intro _
  exact guards.keeps_checkLambdaNotifications context _ _

theorem keeps_redriveMessageTo (queue : Queue) (messageId : String)
    (mainQueues : List Queue) :
    (Service.redriveMessageTo db now queue messageId mainQueues).Keeps holds :=
  keeps_foldlM mainQueues (fun _ mainQueue _ => guards.redriveMessage now mainQueue queue messageId)
    0

theorem keeps_redriveMessagesTo (queue : Queue) (mainQueues : List Queue) :
    (Service.redriveMessagesTo db now queue mainQueues).Keeps holds :=
  keeps_foldlM mainQueues
    (fun _ mainQueue _ => Keeps.bind (guards.redriveMessages now mainQueue queue)
      fun _ => keeps_pure _) 0

theorem keeps_redriveMessage (request : Dto.RedriveMessageRequest) :
    (Service.redriveMessage db now request).Keeps holds := by
  rw [Service.redriveMessage]
  apply Keeps.bind (guards.queueArnExists _)
  intro found
  refine Satisfies.ite (fun _ => Keeps.rethrow ?_) fun _ => keeps_raise _
  apply Keeps.bind (guards.getQueueByArn now _)
  intro queue
  apply Keeps.bind (guards.isDlq _)
  intro mainQueues
  refine Satisfies.ite (fun _ => ?_) fun _ => ?_
  · exact Keeps.bind (guards.resetMessages now _ _) fun _ => guards.adjustMessageCounters now
  · exact Keeps.bind (guards.keeps_redriveMessageTo now queue _ mainQueues)
      fun _ => guards.adjustMessageCounters now

theorem keeps_redriveMessages (request : Dto.RedriveMessagesRequest) :
    (Service.redriveMessages db now request).Keeps holds := by
  rw [Service.redriveMessages]
  apply Keeps.bind (guards.queueArnExists _)
  intro found
  refine Satisfies.ite (fun _ => Keeps.rethrow ?_) fun _ => keeps_raise _
  apply Keeps.bind (guards.getQueueByArn now _)
  intro queue
  apply Keeps.bind (guards.isDlq _)
  intro mainQueues
  have hadjust : ∀ count : Int, (do db.adjustMessageCounters now; return count).Keeps holds :=
    fun count => Keeps.bind (guards.adjustMessageCounters now) fun _ => keeps_pure count
  refine Satisfies.ite (fun _ => ?_) fun _ => ?_
  · exact Keeps.bind (guards.resetMessages now _ _) hadjust
  · exact Keeps.bind (guards.keeps_redriveMessagesTo now queue mainQueues) hadjust

theorem keeps_maintainQueue (queue : Queue) :
    (Server.maintainQueue db now queue).Keeps holds := by
  rw [Server.maintainQueue]
  apply Keeps.bind (guards.countMessages _ _)
  intro messageCount
  refine Satisfies.ite (fun _ => ?_) fun _ => keeps_pure ()
  have hretention : (Server.applyRetention db now queue).Keeps holds :=
    Satisfies.ite (fun _ => Keeps.bind (guards.messageRetention now _ _) fun _ => keeps_pure _)
      fun _ => keeps_pure queue
  apply Keeps.bind hretention
  intro queue
  have hvisibility : (Server.applyVisibility db now queue).Keeps holds :=
    Satisfies.ite (fun _ => Keeps.bind (guards.resetMessages now _ _) fun _ => keeps_pure _)
      fun _ => keeps_pure queue
  apply Keeps.bind hvisibility
  intro queue
  have hdelay : (Server.applyDelay db now queue).Keeps holds :=
    Satisfies.ite (fun _ => Keeps.bind (guards.resetDelayedMessages now _ _) fun _ => keeps_pure _)
      fun _ => keeps_pure queue
  apply Keeps.bind hdelay
  intro queue
  exact Keeps.bind (guards.updateQueue now _) fun _ => keeps_pure ()

theorem keeps_run (hrandom : context.random = random) (operation : Operation) :
    (operation.run context db).Keeps holds := by
  have hdrop : ∀ {α : Type} {call : Call Mutex Store α}, call.Keeps holds →
      (do let _ ← call; return ()).Keeps holds :=
    fun hcall => Keeps.bind hcall fun _ => keeps_pure ()
  cases operation with
  | createQueue now request => exact hdrop (guards.keeps_createQueue context now request)
  | deleteQueue now request => exact hdrop (guards.keeps_deleteQueue now request)
  | sendMessage now request => exact hdrop (guards.keeps_sendMessage context hrandom now request)
  | receiveMessages now later request =>
    exact hdrop ((guards.satisfies_receiveMessages context now later request).weaken
      fun _ _ => And.left)
  | deleteMessage request =>
    exact Keeps.rethrow (hdrop (guards.deleteMessage request.receiptHandle))
  | deleteMessageBatch entries =>
    refine hdrop (Keeps.rethrow (keeps_foldlM entries (fun response entry _ => ?_) _))
    apply Keeps.bind (guards.deleteMessage entry.receiptHandle)
    intro deleted
    exact Satisfies.ite (fun _ => keeps_pure _) fun _ => keeps_pure _
  | purgeQueue now request => exact hdrop (guards.keeps_purgeQueue context now request)
  | resendMessage now request => exact guards.keeps_resendMessage context now request
  | redriveMessage now request => exact guards.keeps_redriveMessage now request
  | redriveMessages now request => exact hdrop (guards.keeps_redriveMessages now request)
  | resetMessages now =>
    rw [Operation.run, Server.resetMessages]
    apply Keeps.bind (guards.listQueues "")
    intro queues
    exact keeps_forM queues fun queue _ => guards.keeps_maintainQueue now queue

theorem of_reaches (hrandom : context.random = random) {first last : World Store}
    (hrun : Reaches context db first last) (hfirst : holds first) : holds last := by
  refine of_reflTransGen ?_ hrun hfirst
  rintro before after ⟨operation, lambdas, rfl⟩ hbefore
  exact (guards.keeps_run (context.withLambdas lambdas) hrandom operation).after hbefore

end Guards

end AwsMock.Sqs
