import Mathlib.Algebra.GroupWithZero.Nat
import AwsMock.Sqs.Claims
import AwsMock.Sqs.Content

/-! # Redriving a dead-letter queue

The service redrives the messages of a dead-letter queue to every main queue in
turn, so they end in the first one that is another queue. The in-memory
repository keeps the receipt handle and the reset time of a message; the
MongoDB repository keeps the name of the queue it came from, writes the new
name to a field that is not read, and sets the reset time. The two agree, and
a consumer gets the messages back, when none of this makes a difference.
-/

namespace AwsMock.Sqs

open Foundation Action

structure IsMoved (mainQueue : Queue) (old new : Message) : Prop where
  away : mainQueue.arn ≠ old.queueArn
  queueArn : new.queueArn = mainQueue.arn
  queueName : new.queueName = mainQueue.name
  status : new.status = .initial
  retries : new.retries = 0
  receiptHandle : new.receiptHandle = ""
  rest : new = { old with
    queueArn := new.queueArn
    queueName := new.queueName
    status := new.status
    retries := new.retries
    receiptHandle := new.receiptHandle
    reset := new.reset }

section Service

variable {Store : Type} (db : Repository Store)

/-- Some receive from the queue returns the message with this object id. -/
def CanReceive (world : World Store) (queue : Queue) (oid : String) : Prop :=
  ∃ now maxMessages messageList after,
    (Service.receiveOnce db now queue maxMessages).run [] world = .returns messageList after ∧
      ∃ message ∈ messageList, message.oid = oid

structure FindsMainQueues (now : Time) (queueArn : String) (dlqQueue : Queue)
    (mainQueues : List Queue) (world looked : World Store) : Prop where
  present : (db.queueArnExists queueArn).run [] world = .returns true world
  found : ∃ middle, (db.getQueueByArn now queueArn).run [] world = .returns dlqQueue middle ∧
      (db.isDlq queueArn).run [] middle = .returns mainQueues looked

variable {db}
variable {now : Time} {dlqQueue : Queue} {mainQueues : List Queue}
variable {world looked middle after : World Store} {count : Int}

theorem isEmpty_of_ne_nil (hmain : mainQueues ≠ []) : mainQueues.isEmpty = false := by
  cases mainQueues with
  | nil => exact absurd rfl hmain
  | cons _ _ => rfl

theorem run_redriveMessages (request : Dto.RedriveMessagesRequest)
    (hfinds : FindsMainQueues db now request.queueArn dlqQueue mainQueues world looked)
    (hmain : mainQueues ≠ [])
    (hloop : (Service.redriveMessagesTo db now dlqQueue mainQueues).run [] looked =
      .returns count middle)
    (hadjust : (db.adjustMessageCounters now).run [] middle = .returns () after) :
    (Service.redriveMessages db now request).run [] world = .returns count after := by
  obtain ⟨between, hqueue, hmains⟩ := hfinds.found
  rw [Service.redriveMessages, run_bind, hfinds.present]
  simp only [Outcome.andThen_returns, if_true, Service.translated, run_rethrow, run_bind, hqueue,
    hmains, isEmpty_of_ne_nil hmain, Bool.false_eq_true, if_false, hloop, hadjust, run_pure]

theorem run_redriveMessage (request : Dto.RedriveMessageRequest)
    (hfinds : FindsMainQueues db now request.queueArn dlqQueue mainQueues world looked)
    (hmain : mainQueues ≠ [])
    (hloop : (Service.redriveMessageTo db now dlqQueue request.messageId mainQueues).run [] looked =
      .returns count middle)
    (hadjust : (db.adjustMessageCounters now).run [] middle = .returns () after) :
    (Service.redriveMessage db now request).run [] world = .returns () after := by
  obtain ⟨between, hqueue, hmains⟩ := hfinds.found
  rw [Service.redriveMessage, run_bind, hfinds.present]
  simp only [Outcome.andThen_returns, if_true, Service.translated, run_rethrow, run_bind, hqueue,
    hmains, isEmpty_of_ne_nil hmain, Bool.false_eq_true, if_false, hloop, hadjust]

end Service

/-- The messages a redrive selects: those of the dead-letter queue, or the one
with the given id. -/
def isRedriven (dlqQueue : Queue) (messageId : Option String) (message : Message) : Bool :=
  message.isIn dlqQueue.arn && messageId.all fun messageId => message.messageId = messageId

def redrivenInMongo (now : Time) (originalQueue : Queue) (message : Message) : Message :=
  { message with
    queueArn := originalQueue.arn
    retries := 0
    reset := now + seconds originalQueue.attributes.visibilityTimeout
    receiptHandle := ""
    status := .initial }

/-- The selected messages are moved to one main queue each, where they can be
received, other messages are as they were, and both stores agree. -/
structure Redriven (random : RandomSource) (order : Option Value → Option Value → Bool)
    (selected : Message → Bool) (mainQueues : List Queue) (memory : MemoryStore)
    (memoryAfter : World MemoryStore) (mongoAfter : World MongoStore) : Prop where
  moved : List.Forall₂
    (fun old new =>
      if selected old = true then
        ∃ mainQueue ∈ mainQueues, IsMoved mainQueue old new ∧
          CanReceive (memoryRepository random) memoryAfter mainQueue new.oid ∧
          ∃ fuel, CanReceive (mongoRepository random order fuel) mongoAfter mainQueue new.oid
      else new = old)
    memory.messages.values memoryAfter.store.messages.values
  same : SameMessages memoryAfter.store mongoAfter.store

/-- A message both repositories redrive alike: what one of them rewrites and
the other keeps is right already, and a main queue of the target's name and ARN
does not send the message straight back. -/
structure RedrivesAlike (now : Time) (mainQueues : List Queue) (target : Queue)
    (message : Message) : Prop where
  receiptHandle : message.receiptHandle = ""
  queueName : message.queueName = target.name
  reset : message.reset = now + seconds target.attributes.visibilityTimeout
  received : ∃ mainQueue ∈ mainQueues, mainQueue.arn = target.arn ∧ mainQueue.name = target.name ∧
    isDead (Service.redriveTarget mainQueue).1 (Service.redriveTarget mainQueue).2 1 = false

section Rounds

variable {dlqQueue : Queue} {messageId : Option String} {now : Time}

theorem isRedriven_redriven (place : Queue) (message : Message)
    (hselected : isRedriven dlqQueue messageId message = true) :
    isRedriven dlqQueue messageId (MemoryRepository.redriven place message) =
      decide (place.arn = dlqQueue.arn) := by
  rw [isRedriven, Bool.and_eq_true] at hselected
  rw [isRedriven]
  exact (congrArg _ hselected.2).trans (Bool.and_true _)

theorem isRedriven_redrivenInMongo (place : Queue) (message : Message)
    (hselected : isRedriven dlqQueue messageId message = true) :
    isRedriven dlqQueue messageId (redrivenInMongo now place message) =
      decide (place.arn = dlqQueue.arn) := by
  rw [isRedriven, Bool.and_eq_true] at hselected
  rw [isRedriven]
  exact (congrArg _ hselected.2).trans (Bool.and_true _)

def endOf (dlqQueue : Queue) (messageId : Option String) (mainQueues : List Queue) :
    Message → Message :=
  settle (isRedriven dlqQueue messageId) MemoryRepository.redriven mainQueues

def endInMongo (now : Time) (dlqQueue : Queue) (messageId : Option String)
    (mainQueues : List Queue) : Message → Message :=
  settle (isRedriven dlqQueue messageId) (redrivenInMongo now) mainQueues

variable {mainQueues : List Queue} {message : Message}

theorem endOf_of_not (hselected : isRedriven dlqQueue messageId message = false) :
    endOf dlqQueue messageId mainQueues message = message :=
  settle_of_not hselected

theorem endInMongo_of_not (hselected : isRedriven dlqQueue messageId message = false) :
    endInMongo now dlqQueue messageId mainQueues message = message :=
  settle_of_not hselected

section

variable (hselected : isRedriven dlqQueue messageId message = true)
include hselected

theorem endOf_of_find? {target : Queue}
    (hfind : mainQueues.find? (fun queue => !decide (queue.arn = dlqQueue.arn)) = some target) :
    endOf dlqQueue messageId mainQueues message = MemoryRepository.redriven target message :=
  settle_of_find? isRedriven_redriven (fun _ _ _ => rfl) hselected hfind

theorem endInMongo_of_find? {target : Queue}
    (hfind : mainQueues.find? (fun queue => !decide (queue.arn = dlqQueue.arn)) = some target) :
    endInMongo now dlqQueue messageId mainQueues message = redrivenInMongo now target message :=
  settle_of_find? isRedriven_redrivenInMongo (fun _ _ _ => rfl) hselected hfind

theorem isRedriven_endOf
    (hfind : mainQueues.find? (fun queue => !decide (queue.arn = dlqQueue.arn)) = none) :
    isRedriven dlqQueue messageId (endOf dlqQueue messageId mainQueues message) = true :=
  select_settle_of_find? isRedriven_redriven hselected hfind

end

@[simp] theorem endOf_oid : (endOf dlqQueue messageId mainQueues message).oid = message.oid := by
  rw [endOf, settle]
  induction mainQueues generalizing message with
  | nil => rfl
  | cons place places ih =>
    rw [List.foldl_cons, ih]
    split <;> rfl

end Rounds

section Receivable

variable {random : RandomSource} {order : Option Value → Option Value → Bool} {queue : Queue}
variable {message : Message}

theorem canReceive_memory {world : World MemoryStore}
    (hmessage : message ∈ world.store.messages.values)
    (hready : message.isReady queue.arn = true) :
    CanReceive (memoryRepository random) world queue message.oid := by
  have htaken : message ∈ takenMessages queue.arn (-1) 0 world.store.messages.values :=
    List.mem_filter.mpr ⟨hmessage, hready⟩
  obtain ⟨draw, -, hlist⟩ := mem_walk_of_mem_taken random
    (0 + seconds queue.attributes.visibilityTimeout) (Service.redriveTarget queue).1
    (Service.redriveTarget queue).2 world.draws [] (hasRoom_zero (-1)) htaken
  exact ⟨0, -1, _, _, run_receiveMessages_memory List.not_mem_nil, _, hlist, taken_oid⟩

theorem canReceive_mongo_iff {world : World MongoStore} {messages : List Message}
    (hstored : List.Forall₂ Message.StoredAs messages world.store.messages)
    (hnodup : (messages.map Message.oid).Nodup) (hmessage : message ∈ messages)
    (hready : message.isReady queue.arn = true) (hretries : message.retries = 0)
    (hother : queue.attributes.redrivePolicy.deadLetterTargetArn ≠ queue.arn) :
    (∃ fuel, CanReceive (mongoRepository random order fuel) world queue message.oid) ↔
      isDead (Service.redriveTarget queue).1 (Service.redriveTarget queue).2 1 = false := by
  have htarget : (Service.redriveTarget queue).1 ≠ "" → (Service.redriveTarget queue).1 ≠ queue.arn := by
    rw [Service.redriveTarget]
    split
    · intro hempty
      exact absurd rfl hempty
    · exact fun _ => hother
  have hspent : message.isSpent (Service.redriveTarget queue).1 (Service.redriveTarget queue).2 =
      isDead (Service.redriveTarget queue).1 (Service.redriveTarget queue).2 1 := by
    rw [Message.isSpent, hretries]
    rfl
  constructor
  · rintro ⟨fuel, now, maxMessages, messageList, after, hrun, copy, hcopy, hoid⟩
    rcases of_mem_receiveLoop htarget hstored hnodup hrun copy hcopy with
      hnone | ⟨source, hsource, -, halive, hsame⟩
    · cases hnone
    · have hsource : source = message :=
        List.inj_on_of_nodup_map hnodup hsource hmessage (hsame.symm.trans hoid)
      rw [← hspent, ← hsource]
      exact halive
  · intro halive
    obtain ⟨messageList, after, hrun, -, hreturned⟩ := exists_run_receiveLoop random
      (0 + seconds queue.attributes.visibilityTimeout) (Service.redriveTarget queue).2 [] []
      (Int.le_refl 0) htarget hstored hnodup (Nat.lt_succ_self _)
    exact ⟨messages.countP (Message.isReady queue.arn) + 1, 0, 0, messageList, after, hrun,
      hreturned message hmessage hready (hspent.trans halive)⟩

end Receivable

section Agreement

variable {random : RandomSource} {order : Option Value → Option Value → Bool} {now : Time}
variable {dlqQueue : Queue} {messageId : Option String} {mainQueues : List Queue}
variable {memory : MemoryStore} {mongo : MongoStore}
variable {memoryAfter : World MemoryStore} {mongoAfter : World MongoStore}

/-- The messages that the two redrives leave, from equal stores. -/
structure RedriveEnds (now : Time) (dlqQueue : Queue) (messageId : Option String)
    (mainQueues : List Queue) (memory : MemoryStore) (memoryAfter : World MemoryStore)
    (mongoAfter : World MongoStore) : Prop where
  keyed : ∀ entry ∈ memoryAfter.store.messages.entries, entry.2.oid = entry.1
  values : memoryAfter.store.messages.values =
    memory.messages.values.map (endOf dlqQueue messageId mainQueues)
  documents : List.Forall₂ Message.StoredAs
    (memory.messages.values.map (endInMongo now dlqQueue messageId mainQueues))
    mongoAfter.store.messages

theorem redriven_iff (hsame : SameMessages memory mongo) (htargets : ∀ queue ∈ mainQueues,
      queue.attributes.redrivePolicy.deadLetterTargetArn = dlqQueue.arn)
    (hends : RedriveEnds now dlqQueue messageId mainQueues memory memoryAfter mongoAfter) :
    Redriven random order (isRedriven dlqQueue messageId) mainQueues memory memoryAfter mongoAfter ↔
      ∀ message ∈ memory.messages.values, isRedriven dlqQueue messageId message = true →
        ∃ target, mainQueues.find? (fun queue => !decide (queue.arn = dlqQueue.arn)) = some target ∧
          RedrivesAlike now mainQueues target message := by
  have hnodup : (memoryAfter.store.messages.values.map Message.oid).Nodup := nodup_oids hends.keyed
  have hreceive : ∀ (message : Message) (target mainQueue : Queue),
      message ∈ memory.messages.values → isRedriven dlqQueue messageId message = true →
      mainQueues.find? (fun queue => !decide (queue.arn = dlqQueue.arn)) = some target →
      mainQueue ∈ mainQueues → mainQueue.arn = target.arn →
      List.Forall₂ Message.StoredAs memoryAfter.store.messages.values mongoAfter.store.messages →
      CanReceive (memoryRepository random) memoryAfter mainQueue message.oid ∧
        ((∃ fuel, CanReceive (mongoRepository random order fuel) mongoAfter mainQueue message.oid) ↔
          isDead (Service.redriveTarget mainQueue).1 (Service.redriveTarget mainQueue).2 1 =
            false) := by
    intro message target mainQueue hmessage hselected hfind hmain harn hstored
    have hend := endOf_of_find? hselected hfind
    have hmem : endOf dlqQueue messageId mainQueues message ∈ memoryAfter.store.messages.values := by
      rw [hends.values]
      exact List.mem_map_of_mem hmessage
    rw [hend] at hmem
    have hready : (MemoryRepository.redriven target message).isReady mainQueue.arn = true := by
      simp [MemoryRepository.redriven, Message.isReady, Message.isIn, Message.hasStatus, harn]
    have hother : mainQueue.attributes.redrivePolicy.deadLetterTargetArn ≠ mainQueue.arn := by
      rw [htargets mainQueue hmain, harn]
      have haway := List.find?_some hfind
      rw [Bool.not_eq_true', decide_eq_false_iff_not] at haway
      exact fun heq => haway heq.symm
    have hmemory : CanReceive (memoryRepository random) memoryAfter mainQueue
        (MemoryRepository.redriven target message).oid := canReceive_memory hmem hready
    have hmongo : (∃ fuel, CanReceive (mongoRepository random order fuel) mongoAfter mainQueue
        (MemoryRepository.redriven target message).oid) ↔ _ :=
      canReceive_mongo_iff hstored hnodup hmem hready rfl hother
    exact ⟨hmemory, hmongo⟩
  have hpointwise : ∀ {R : Message → Message → Prop},
      List.Forall₂ R memory.messages.values memoryAfter.store.messages.values ↔
        ∀ message ∈ memory.messages.values,
          R message (endOf dlqQueue messageId mainQueues message) := by
    intro R
    rw [hends.values, List.forall₂_map_right_iff, List.forall₂_same]
  constructor
  · rintro ⟨hmoved, hsameAfter⟩ message hmessage hselected
    have hmessageMoved := hpointwise.mp hmoved message hmessage
    rw [if_pos hselected] at hmessageMoved
    obtain ⟨mainQueue, hmain, hmove, -, hreceived⟩ := hmessageMoved
    rw [endOf_oid] at hreceived
    cases hfind : mainQueues.find? (fun queue => !decide (queue.arn = dlqQueue.arn)) with
    | none =>
      -- Every main queue is the dead-letter queue itself.
      have hstill := isRedriven_endOf hselected hfind
      rw [isRedriven, Bool.and_eq_true, Message.isIn, decide_eq_true_eq] at hstill hselected
      exact absurd (hmove.queueArn.symm.trans (hstill.1.trans hselected.1.symm)) hmove.away
    | some target =>
      rw [endOf_of_find? hselected hfind] at hmove
      have hboth := forall₂_and (List.forall₂_map_left_iff.mp hends.documents)
        (List.forall₂_map_left_iff.mp (hends.values ▸ hsameAfter.stored))
      obtain ⟨document, -, hmongo, hmemory⟩ := exists_of_forall₂_left hboth hmessage
      rw [endInMongo_of_find? hselected hfind] at hmongo
      rw [endOf_of_find? hselected hfind] at hmemory
      refine ⟨target, rfl, congrArg Message.receiptHandle (hmemory.unique hmongo),
        congrArg Message.queueName (hmongo.unique hmemory),
        hmemory.reset.unique hmongo.reset, mainQueue, hmain, hmove.queueArn.symm,
        hmove.queueName.symm, ?_⟩
      exact (hreceive message target mainQueue hmessage hselected hfind hmain
        hmove.queueArn.symm hsameAfter.stored).2.mp hreceived
  · intro hcondition
    have hagree : ∀ message ∈ memory.messages.values,
        endInMongo now dlqQueue messageId mainQueues message =
          endOf dlqQueue messageId mainQueues message := by
      intro message hmessage
      cases hselected : isRedriven dlqQueue messageId message with
      | false => rw [endInMongo_of_not hselected, endOf_of_not hselected]
      | true =>
        obtain ⟨target, hfind, halike⟩ := hcondition message hmessage hselected
        rw [endInMongo_of_find? hselected hfind, endOf_of_find? hselected hfind,
          redrivenInMongo, MemoryRepository.redriven, halike.receiptHandle, halike.queueName,
          halike.reset]
    have hstored : List.Forall₂ Message.StoredAs memoryAfter.store.messages.values
        mongoAfter.store.messages := by
      rw [hends.values, ← List.map_congr_left hagree]
      exact hends.documents
    refine ⟨hpointwise.mpr fun message hmessage => ?_, hends.keyed, hstored, ?_⟩
    · cases hselected : isRedriven dlqQueue messageId message with
      | false =>
        rw [if_neg Bool.false_ne_true]
        exact endOf_of_not hselected
      | true =>
        obtain ⟨target, hfind, halike⟩ := hcondition message hmessage hselected
        obtain ⟨mainQueue, hmain, harn, hname, halive⟩ := halike.received
        obtain ⟨hmemory, hmongo⟩ :=
          hreceive message target mainQueue hmessage hselected hfind hmain harn hstored
        rw [if_pos rfl, endOf_oid]
        refine ⟨mainQueue, hmain, ?_, hmemory, hmongo.mpr halive⟩
        rw [endOf_of_find? hselected hfind]
        have haway := List.find?_some hfind
        rw [Bool.not_eq_true', decide_eq_false_iff_not] at haway
        rw [isRedriven, Bool.and_eq_true, Message.isIn, decide_eq_true_eq] at hselected
        refine ⟨?_, harn.symm, hname.symm, rfl, rfl, halike.receiptHandle, rfl⟩
        rw [harn, hselected.1]
        exact haway
    · intro message hmessage
      rw [hends.values] at hmessage
      obtain ⟨old, hold, rfl⟩ := List.mem_map.mp hmessage
      cases hselected : isRedriven dlqQueue messageId old with
      | false =>
        rw [endOf_of_not hselected]
        exact hsame.readable old hold
      | true =>
        obtain ⟨target, hfind, -⟩ := hcondition old hold hselected
        rw [endOf_of_find? hselected hfind]
        rfl

end Agreement

section Runs

variable {random : RandomSource} {order : Option Value → Option Value → Bool} {fuel : Nat}
variable {now : Time} {dlqQueue : Queue} {messageId : Option String}

theorem isRedriven_none (dlqQueue : Queue) :
    isRedriven dlqQueue none = fun message => message.isIn dlqQueue.arn := by
  funext message
  exact Bool.and_true _

def tallies (dlqQueue : Queue) (messageId : Option String) : List Queue → List Message → List Nat
  | [], _ => []
  | place :: places, messages =>
    messages.countP (isRedriven dlqQueue messageId) :: tallies dlqQueue messageId places
        (rewriteWhere (isRedriven dlqQueue messageId) (MemoryRepository.redriven place) messages)

variable {places : List Queue} {place : Queue}

theorem countP_redriven_away {messages : List Message} (haway : place.arn ≠ dlqQueue.arn) :
    (rewriteWhere (isRedriven dlqQueue messageId) (MemoryRepository.redriven place)
      messages).countP (isRedriven dlqQueue messageId) = 0 := by
  rw [List.countP_eq_zero]
  intro message hmessage
  obtain ⟨old, -, rfl⟩ := mem_rewriteWhere.mp hmessage
  split
  next hselected =>
    rw [isRedriven_redriven place old hselected, decide_eq_false haway]
    exact Bool.false_ne_true
  next hselected => exact hselected

theorem countP_redriven_stays {messages : List Message} (hstays : place.arn = dlqQueue.arn) :
    (rewriteWhere (isRedriven dlqQueue messageId) (MemoryRepository.redriven place)
      messages).countP (isRedriven dlqQueue messageId) =
        messages.countP (isRedriven dlqQueue messageId) := by
  rw [rewriteWhere, List.countP_map]
  apply List.countP_congr
  intro message _
  cases hselected : isRedriven dlqQueue messageId message with
  | false => simp [hselected]
  | true => simp [hselected, isRedriven_redriven place message hselected, hstays]

theorem sum_tallies_of_none {messages : List Message}
    (hnone : messages.countP (isRedriven dlqQueue messageId) = 0) :
    (tallies dlqQueue messageId places messages).sum = 0 := by
  induction places with
  | nil => rfl
  | cons place places ih =>
    have hquiet : ∀ message ∈ messages, isRedriven dlqQueue messageId message = false := by
      intro message hmessage
      exact Bool.eq_false_iff.mpr (List.countP_eq_zero.mp hnone message hmessage)
    rw [tallies, List.sum_cons, hnone, rewriteWhere_of_none hquiet, ih]

theorem sum_tallies_of_away {messages : List Message} (haway : place.arn ≠ dlqQueue.arn) :
    (tallies dlqQueue messageId (place :: places) messages).sum =
      messages.countP (isRedriven dlqQueue messageId) := by
  rw [tallies, List.sum_cons, sum_tallies_of_none (countP_redriven_away haway), Nat.add_zero]

theorem le_sum_tallies_of_stays {first second : Queue}
    {messages : List Message} (hstays : first.arn = dlqQueue.arn) :
    2 * messages.countP (isRedriven dlqQueue messageId) ≤
      (tallies dlqQueue messageId (first :: second :: places) messages).sum := by
  rw [tallies, tallies, List.sum_cons, List.sum_cons, countP_redriven_stays hstays]
  omega

theorem run_foldlM_redrive {body : Int → Queue → Call Mutex MemoryStore Int}
    {combine : Int → Nat → Int}
    (hbody : ∀ count place world, (body count place).run [] world =
      .returns (combine count (world.store.messages.values.countP (isRedriven dlqQueue messageId)))
        { world with
          store := { world.store with
            messages := world.store.messages.rewriteIf (isRedriven dlqQueue messageId)
              (MemoryRepository.redriven place) } })
    (places : List Queue) (start : Int) (world : World MemoryStore)
    (hkeyed : ∀ entry ∈ world.store.messages.entries, entry.2.oid = entry.1) :
    ∃ after, (places.foldlM body start).run [] world =
        .returns ((tallies dlqQueue messageId places world.store.messages.values).foldl
          combine start) after ∧
      after.store.messages.values =
        world.store.messages.values.map (endOf dlqQueue messageId places) ∧
      ∀ entry ∈ after.store.messages.entries, entry.2.oid = entry.1 := by
  induction places generalizing start world with
  | nil => exact ⟨world, rfl, (List.map_id _).symm, hkeyed⟩
  | cons place places ih =>
    have hround := hbody start place world
    obtain ⟨after, hrun, hvalues, hlater⟩ := ih
      (combine start (world.store.messages.values.countP (isRedriven dlqQueue messageId)))
      { world with
        store := { world.store with
          messages := world.store.messages.rewriteIf (isRedriven dlqQueue messageId)
            (MemoryRepository.redriven place) } } (keyed_rewriteIf hkeyed fun _ => rfl)
    refine ⟨after, ?_, ?_, hlater⟩
    · rw [List.foldlM_cons, run_bind, hround, Outcome.andThen_returns, hrun,
        UnorderedMap.values_rewriteIf, tallies, List.foldl_cons]
    · rw [hvalues, UnorderedMap.values_rewriteIf, rewriteWhere, List.map_map]
      rfl

variable {messages : List Message} {filter : Filter}
variable {body : Int → Queue → Call Mutex MongoStore Int} {combine : Int → Nat → Int}

def SelectsRedriven (dlqQueue : Queue) (messageId : Option String) (filter : Filter) : Prop :=
  ∀ message document, Message.StoredAs message document →
    isRedriven dlqQueue messageId message = filter.accepts document

def RedrivesDocuments (now : Time) (filter : Filter) (combine : Int → Nat → Int)
    (body : Int → Queue → Call Mutex MongoStore Int) : Prop :=
  ∀ count place world, (body count place).run [] world =
    .returns (combine count (Collection.modifiedCount filter
        (MongoRepository.redriveUpdate now place) world.store.messages))
      { world with
        store := { world.store with
          messages := Collection.updateMany filter (MongoRepository.redriveUpdate now place)
            world.store.messages } }

theorem exists_run_foldlM_redrive (hfilter : SelectsRedriven dlqQueue messageId filter)
    (hbody : RedrivesDocuments now filter combine body) (places : List Queue) (start : Int)
    (world : World MongoStore)
    (hstored : List.Forall₂ Message.StoredAs messages world.store.messages) :
    ∃ count after, (places.foldlM body start).run [] world = .returns count after ∧
      List.Forall₂ Message.StoredAs (messages.map (endInMongo now dlqQueue messageId places))
        after.store.messages := by
  induction places generalizing messages start world with
  | nil =>
    refine ⟨start, world, rfl, ?_⟩
    rw [show endInMongo now dlqQueue messageId [] = id from rfl, List.map_id]
    exact hstored
  | cons place places ih =>
    have hround : List.Forall₂ Message.StoredAs
        (rewriteWhere (isRedriven dlqQueue messageId) (redrivenInMongo now place) messages)
        (Collection.updateMany filter (MongoRepository.redriveUpdate now place)
          world.store.messages) :=
      forall₂_rewriteWhere hstored hfilter fun message document hmessage _ =>
        hmessage.redrive now place
    obtain ⟨count, after, hrun, hafter⟩ := ih
      (combine start (Collection.modifiedCount filter (MongoRepository.redriveUpdate now place)
        world.store.messages))
      { world with
        store := { world.store with
          messages := Collection.updateMany filter (MongoRepository.redriveUpdate now place)
            world.store.messages } } hround
    refine ⟨count, after, ?_, ?_⟩
    · rw [List.foldlM_cons, run_bind, hbody, Outcome.andThen_returns, hrun]
    · rw [rewriteWhere, List.map_map] at hafter
      exact hafter

theorem run_foldlM_redrive_none (hbody : RedrivesDocuments now filter combine body)
    (hzero : ∀ count, combine count 0 = count) (places : List Queue) (start : Int)
    (world : World MongoStore)
    (hnone : ∀ document ∈ world.store.messages, filter.accepts document = false) :
    (places.foldlM body start).run [] world = .returns start world := by
  induction places with
  | nil => rfl
  | cons place places ih =>
    have hcount : Collection.modifiedCount filter (MongoRepository.redriveUpdate now place)
        world.store.messages = 0 := by
      refine List.countP_eq_zero.mpr fun document hdocument => ?_
      rw [hnone document hdocument]
      exact Bool.false_ne_true
    have hupdate : Collection.updateMany filter (MongoRepository.redriveUpdate now place)
        world.store.messages = world.store.messages := rewriteWhere_of_none hnone
    rw [List.foldlM_cons, run_bind, hbody, hcount, hupdate, hzero]
    exact ih

theorem modifiedCount_redrive {documents : Collection}
    (hfilter : SelectsRedriven dlqQueue messageId filter) (haway : place.arn ≠ dlqQueue.arn)
    (hstored : List.Forall₂ Message.StoredAs messages documents) :
    Collection.modifiedCount filter (MongoRepository.redriveUpdate now place) documents =
      messages.countP (isRedriven dlqQueue messageId) := by
  refine (forall₂_countP hstored fun message document hmessage => ?_).symm
  rw [← hfilter message document hmessage]
  cases hselected : isRedriven dlqQueue messageId message with
  | false => rfl
  | true =>
    rw [isRedriven, Bool.and_eq_true, Message.isIn, decide_eq_true_eq] at hselected
    simp [Update.modifies, MongoRepository.redriveUpdate, setString, hmessage.queueArn,
      hselected.1, Ne.symm haway]

end Runs

section Theorem

variable {random : RandomSource} {order : Option Value → Option Value → Bool} {fuel : Nat}
variable {now : Time} {dlqQueue : Queue} {mainQueues : List Queue}
variable {memory lookedMemory : World MemoryStore} {mongo lookedMongo : World MongoStore}

theorem FindsMainQueues.messages_memory {queueArn : String}
    (hfinds : FindsMainQueues (memoryRepository random) now queueArn dlqQueue mainQueues memory
      lookedMemory) : lookedMemory.store.messages = memory.store.messages := by
  obtain ⟨middle, hqueue, hmains⟩ := hfinds.found
  have hmiddle : middle.store.messages = memory.store.messages :=
    Keeps.eq_of_returns (fun world : World MemoryStore => world.store.messages)
      (fun _ => MemoryRepository.IgnoresQueues.keeps_getQueueBy (fun _ _ => id) now _) hqueue
  rw [← hmiddle]
  exact Keeps.eq_of_returns (fun world : World MemoryStore => world.store.messages)
    (fun _ => MemoryRepository.keeps_isDlq queueArn) hmains

theorem FindsMainQueues.messages_mongo {queueArn : String}
    (hfinds : FindsMainQueues (mongoRepository random order fuel) now queueArn dlqQueue mainQueues
      mongo lookedMongo) : lookedMongo.store.messages = mongo.store.messages := by
  obtain ⟨middle, hqueue, hmains⟩ := hfinds.found
  have hmiddle : middle.store.messages = mongo.store.messages :=
    Keeps.eq_of_returns (fun world : World MongoStore => world.store.messages)
      (fun _ => MongoRepository.keeps_getQueueBy _ _) hqueue
  rw [← hmiddle]
  exact Keeps.eq_of_returns (fun world : World MongoStore => world.store.messages)
    (fun _ => MongoRepository.keeps_isDlq queueArn) hmains

theorem selectsRedriven_all :
    SelectsRedriven dlqQueue none [fieldIs "queueArn" dlqQueue.arn] := by
  intro message document hmessage
  rw [isRedriven_none, hmessage.accepts_queueArn]

theorem selectsRedriven_one (messageId : String) :
    SelectsRedriven dlqQueue (some messageId)
      [fieldIs "queueArn" dlqQueue.arn, fieldIs "messageId" messageId] := by
  intro message document hmessage
  rw [isRedriven, Filter.accepts_cons, hmessage.accepts_messageId]
  exact congrArg (· && decide (message.messageId = messageId))
    (hmessage.holds_queueArn dlqQueue.arn).symm

theorem run_adjustMessageCounters_memory (now : Time) (world : World MemoryStore) :
    ∃ queues, (MemoryRepository.adjustMessageCounters now).run [] world =
      .returns () { world with store := { world.store with queues } } :=
  ⟨_, rfl⟩

theorem run_adjustMessageCounters_mongo (world : World MongoStore) :
    ∃ queues, MongoRepository.adjustMessageCounters.run [] world =
      .returns () { world with store := { world.store with queues } } :=
  ⟨_, rfl⟩

def addTally (count : Int) (tally : Nat) : Int := count + tally

def lastTally (_count : Int) (tally : Nat) : Int := tally

theorem foldl_addTally (start : Int) (counts : List Nat) :
    counts.foldl addTally start = start + (counts.sum : Nat) := by
  induction counts generalizing start with
  | nil => exact (Int.add_zero start).symm
  | cons tally counts ih =>
    rw [List.foldl_cons, ih, addTally, List.sum_cons, Int.natCast_add, Int.add_assoc]

variable (request : Dto.RedriveMessagesRequest)

theorem run_redriveMessages_memory
    (hfinds : FindsMainQueues (memoryRepository random) now request.queueArn dlqQueue mainQueues
      memory lookedMemory) (hmain : mainQueues ≠ [])
    (hkeyed : ∀ entry ∈ memory.store.messages.entries, entry.2.oid = entry.1) :
    ∃ after, (Service.redriveMessages (memoryRepository random) now request).run [] memory =
        .returns ((tallies dlqQueue none mainQueues memory.store.messages.values).sum : Nat) after ∧
      after.store.messages.values =
        memory.store.messages.values.map (endOf dlqQueue none mainQueues) ∧
      ∀ entry ∈ after.store.messages.entries, entry.2.oid = entry.1 := by
  have hmessages := hfinds.messages_memory
  have hbody : ∀ (count : Int) (place : Queue) (world : World MemoryStore),
      (do return count + (← MemoryRepository.redriveMessages place dlqQueue) :
        Call Mutex MemoryStore Int).run [] world =
      .returns (addTally count (world.store.messages.values.countP (isRedriven dlqQueue none)))
        { world with
          store := { world.store with
            messages := world.store.messages.rewriteIf (isRedriven dlqQueue none)
              (MemoryRepository.redriven place) } } := by
    intro count place world
    rw [run_bind, MemoryRepository.redriveMessages, ← isRedriven_none,
      MemoryRepository.run_rewriteMessages]
    rfl
  obtain ⟨middle, hrun, hvalues, hlater⟩ := run_foldlM_redrive hbody mainQueues 0 lookedMemory
    (by rw [hmessages]; exact hkeyed)
  rw [hmessages] at hrun hvalues
  rw [foldl_addTally, Int.zero_add] at hrun
  obtain ⟨queues, hadjust⟩ := run_adjustMessageCounters_memory now middle
  exact ⟨_, run_redriveMessages request hfinds hmain hrun hadjust, hvalues, hlater⟩

theorem run_redriveMessage_memory (request : Dto.RedriveMessageRequest)
    (hfinds : FindsMainQueues (memoryRepository random) now request.queueArn dlqQueue mainQueues
      memory lookedMemory) (hmain : mainQueues ≠ [])
    (hkeyed : ∀ entry ∈ memory.store.messages.entries, entry.2.oid = entry.1) :
    ∃ after, (Service.redriveMessage (memoryRepository random) now request).run [] memory =
        .returns () after ∧
      after.store.messages.values =
        memory.store.messages.values.map (endOf dlqQueue (some request.messageId) mainQueues) ∧
      ∀ entry ∈ after.store.messages.entries, entry.2.oid = entry.1 := by
  have hmessages := hfinds.messages_memory
  have hbody : ∀ (count : Int) (place : Queue) (world : World MemoryStore),
      (MemoryRepository.redriveMessage place dlqQueue request.messageId).run [] world =
      .returns (lastTally count (world.store.messages.values.countP
          (isRedriven dlqQueue (some request.messageId))))
        { world with
          store := { world.store with
            messages := world.store.messages.rewriteIf
              (isRedriven dlqQueue (some request.messageId))
              (MemoryRepository.redriven place) } } :=
    fun _ _ _ => MemoryRepository.run_rewriteMessages
  obtain ⟨middle, hrun, hvalues, hlater⟩ := run_foldlM_redrive hbody mainQueues 0 lookedMemory
    (by rw [hmessages]; exact hkeyed)
  rw [hmessages] at hvalues
  obtain ⟨queues, hadjust⟩ := run_adjustMessageCounters_memory now middle
  exact ⟨_, run_redriveMessage request hfinds hmain hrun hadjust, hvalues, hlater⟩

theorem run_redriveMessages_mongo {messages : List Message}
    (hfinds : FindsMainQueues (mongoRepository random order fuel) now request.queueArn dlqQueue
      mainQueues mongo lookedMongo) (hmain : mainQueues ≠ [])
    (hstored : List.Forall₂ Message.StoredAs messages mongo.store.messages) :
    ∃ count after,
      (Service.redriveMessages (mongoRepository random order fuel) now request).run [] mongo =
        .returns count after ∧
      List.Forall₂ Message.StoredAs (messages.map (endInMongo now dlqQueue none mainQueues))
        after.store.messages ∧
      ((∀ message ∈ messages, isRedriven dlqQueue none message = true →
          ∃ target, mainQueues.head? = some target ∧ target.arn ≠ dlqQueue.arn) →
        count = (messages.countP (isRedriven dlqQueue none) : Nat)) := by
  have hmessages := hfinds.messages_mongo
  rw [← hmessages] at hstored
  have hbody : RedrivesDocuments now [fieldIs "queueArn" dlqQueue.arn] addTally fun count place =>
      (do return count + (← MongoRepository.redriveMessages now place dlqQueue) :
        Call Mutex MongoStore Int) := fun _ _ _ => rfl
  obtain ⟨count, middle, hrun, hafter⟩ := exists_run_foldlM_redrive selectsRedriven_all hbody
    mainQueues 0 lookedMongo hstored
  obtain ⟨queues, hadjust⟩ := run_adjustMessageCounters_mongo middle
  refine ⟨count, _, run_redriveMessages request hfinds hmain hrun hadjust, hafter, fun hhead => ?_⟩
  -- Only the first round finds documents, so its number is the sum.
  have hcount : ∃ last, (mainQueues.foldlM (fun count place =>
      (do return count + (← MongoRepository.redriveMessages now place dlqQueue) :
        Call Mutex MongoStore Int)) 0).run [] lookedMongo =
      .returns (messages.countP (isRedriven dlqQueue none) : Nat) last := by
    cases hselected : messages.countP (isRedriven dlqQueue none) with
    | zero =>
      refine ⟨lookedMongo, run_foldlM_redrive_none hbody (fun count => Int.add_zero count) _ _ _
        fun document hdocument => ?_⟩
      obtain ⟨message, hmessage, hstands⟩ := exists_of_forall₂_right hstored hdocument
      rw [← selectsRedriven_all message document hstands]
      exact Bool.eq_false_iff.mpr (List.countP_eq_zero.mp hselected message hmessage)
    | succ number =>
      obtain ⟨message, hmessage, hmessageSelected⟩ :=
        List.countP_pos_iff.mp (by rw [hselected]; exact Nat.succ_pos number)
      obtain ⟨target, htarget, haway⟩ := hhead message hmessage hmessageSelected
      cases mainQueues with
      | nil => cases htarget
      | cons first rest =>
        injection htarget with htarget
        subst htarget
        have hround : List.Forall₂ Message.StoredAs
            (rewriteWhere (isRedriven dlqQueue none) (redrivenInMongo now first) messages)
            (Collection.updateMany [fieldIs "queueArn" dlqQueue.arn]
              (MongoRepository.redriveUpdate now first) lookedMongo.store.messages) :=
          forall₂_rewriteWhere hstored selectsRedriven_all fun other document hother _ =>
            hother.redrive now first
        rw [List.foldlM_cons, run_bind, hbody, modifiedCount_redrive selectsRedriven_all haway
          hstored, hselected, Outcome.andThen_returns, addTally, Int.zero_add]
        refine ⟨_, run_foldlM_redrive_none hbody (fun count => Int.add_zero count) rest _ _ ?_⟩
        intro document hdocument
        obtain ⟨other, hother, hstands⟩ := exists_of_forall₂_right hround hdocument
        rw [← selectsRedriven_all other document hstands]
        obtain ⟨old, -, rfl⟩ := mem_rewriteWhere.mp hother
        split
        next hold =>
          rw [isRedriven_redrivenInMongo first old hold, decide_eq_false haway]
        next hold => exact Bool.eq_false_iff.mpr hold
  obtain ⟨last, hlast⟩ := hcount
  rw [hlast] at hrun
  injection hrun with hsum
  exact hsum.symm

theorem run_redriveMessage_mongo {messages : List Message} (request : Dto.RedriveMessageRequest)
    (hfinds : FindsMainQueues (mongoRepository random order fuel) now request.queueArn dlqQueue
      mainQueues mongo lookedMongo) (hmain : mainQueues ≠ [])
    (hstored : List.Forall₂ Message.StoredAs messages mongo.store.messages) :
    ∃ after, (Service.redriveMessage (mongoRepository random order fuel) now request).run [] mongo =
        .returns () after ∧
      List.Forall₂ Message.StoredAs
        (messages.map (endInMongo now dlqQueue (some request.messageId) mainQueues))
        after.store.messages := by
  have hmessages := hfinds.messages_mongo
  rw [← hmessages] at hstored
  have hbody : RedrivesDocuments now
      [fieldIs "queueArn" dlqQueue.arn, fieldIs "messageId" request.messageId] lastTally
      fun _ place => MongoRepository.redriveMessage now place dlqQueue request.messageId :=
    fun _ _ _ => rfl
  obtain ⟨count, middle, hrun, hafter⟩ := exists_run_foldlM_redrive
    (selectsRedriven_one request.messageId) hbody mainQueues 0 lookedMongo hstored
  obtain ⟨queues, hadjust⟩ := run_adjustMessageCounters_mongo middle
  exact ⟨_, run_redriveMessage request hfinds hmain hrun hadjust, hafter⟩

/-- What a redrive of all messages is for: both repositories redrive alike, and
both return the number of messages of the dead-letter queue. -/
def RedrivesMessages (random : RandomSource) (order : Option Value → Option Value → Bool)
    (fuel : Nat) (now : Time) (request : Dto.RedriveMessagesRequest) (dlqQueue : Queue)
    (mainQueues : List Queue) (memory : World MemoryStore) (mongo : World MongoStore) : Prop :=
  ∃ memoryAfter mongoAfter,
    (Service.redriveMessages (memoryRepository random) now request).run [] memory =
      .returns (memory.store.messages.values.countP (isRedriven dlqQueue none) : Nat) memoryAfter ∧
    (Service.redriveMessages (mongoRepository random order fuel) now request).run [] mongo =
      .returns (memory.store.messages.values.countP (isRedriven dlqQueue none) : Nat) mongoAfter ∧
    Redriven random order (isRedriven dlqQueue none) mainQueues memory.store memoryAfter mongoAfter

def RedrivesMessage (random : RandomSource) (order : Option Value → Option Value → Bool)
    (fuel : Nat) (now : Time) (request : Dto.RedriveMessageRequest) (dlqQueue : Queue)
    (mainQueues : List Queue) (memory : World MemoryStore) (mongo : World MongoStore) : Prop :=
  ∃ memoryAfter mongoAfter,
    (Service.redriveMessage (memoryRepository random) now request).run [] memory =
      .returns () memoryAfter ∧
    (Service.redriveMessage (mongoRepository random order fuel) now request).run [] mongo =
      .returns () mongoAfter ∧
    Redriven random order (isRedriven dlqQueue (some request.messageId)) mainQueues memory.store
      memoryAfter mongoAfter

theorem redrivesMessages_iff_of_finds
    (hmemory : FindsMainQueues (memoryRepository random) now request.queueArn dlqQueue mainQueues
      memory lookedMemory)
    (hmongo : FindsMainQueues (mongoRepository random order fuel) now request.queueArn dlqQueue
      mainQueues mongo lookedMongo)
    (hmain : mainQueues ≠ [])
    (htargets : ∀ queue ∈ mainQueues,
      queue.attributes.redrivePolicy.deadLetterTargetArn = dlqQueue.arn)
    (hsame : SameMessages memory.store mongo.store) :
    RedrivesMessages random order fuel now request dlqQueue mainQueues memory mongo ↔
      ∀ message ∈ memory.store.messages.values, isRedriven dlqQueue none message = true →
        ∃ target, mainQueues.head? = some target ∧ target.arn ≠ dlqQueue.arn ∧
          RedrivesAlike now mainQueues target message := by
  obtain ⟨memoryAfter, hmemoryRun, hvalues, hkeyed⟩ :=
    run_redriveMessages_memory request hmemory hmain hsame.keyed
  obtain ⟨count, mongoAfter, hmongoRun, hdocuments, hcount⟩ :=
    run_redriveMessages_mongo request hmongo hmain hsame.stored
  have hredriven : Redriven random order (isRedriven dlqQueue none) mainQueues memory.store
      memoryAfter mongoAfter ↔ _ := redriven_iff hsame htargets ⟨hkeyed, hvalues, hdocuments⟩
  constructor
  · rintro ⟨memoryLast, mongoLast, hmemoryLast, hmongoLast, hmoved⟩ message hmessage hselected
    rw [hmemoryRun] at hmemoryLast
    rw [hmongoRun] at hmongoLast
    injection hmemoryLast with hsum hmemoryLast
    injection hmongoLast with _ hmongoLast
    subst hmemoryLast hmongoLast
    obtain ⟨target, hfind, halike⟩ := hredriven.mp hmoved message hmessage hselected
    have hpositive : 0 < memory.store.messages.values.countP (isRedriven dlqQueue none) :=
      List.countP_pos_iff.mpr ⟨message, hmessage, hselected⟩
    cases mainQueues with
    | nil => cases hfind
    | cons first rest =>
      by_cases hstays : first.arn = dlqQueue.arn
      · -- The first round would have counted the messages already.
        rw [List.find?_cons, decide_eq_true hstays] at hfind
        cases rest with
        | nil => cases hfind
        | cons second rest =>
          have htwice : 2 * memory.store.messages.values.countP (isRedriven dlqQueue none) ≤
              (tallies dlqQueue none (first :: second :: rest)
                memory.store.messages.values).sum := le_sum_tallies_of_stays hstays
          omega
      · rw [List.find?_cons, decide_eq_false hstays] at hfind
        injection hfind with hfind
        subst hfind
        exact ⟨first, rfl, hstays, halike⟩
  · intro hcondition
    have hhead : ∀ message ∈ memory.store.messages.values, isRedriven dlqQueue none message = true →
        ∃ target, mainQueues.head? = some target ∧ target.arn ≠ dlqQueue.arn := by
      intro message hmessage hselected
      obtain ⟨target, htarget, haway, -⟩ := hcondition message hmessage hselected
      exact ⟨target, htarget, haway⟩
    have hsum : (tallies dlqQueue none mainQueues memory.store.messages.values).sum =
        memory.store.messages.values.countP (isRedriven dlqQueue none) := by
      by_cases hnone : memory.store.messages.values.countP (isRedriven dlqQueue none) = 0
      · rw [sum_tallies_of_none hnone, hnone]
      · obtain ⟨message, hmessage, hselected⟩ :=
          List.countP_pos_iff.mp (Nat.pos_of_ne_zero hnone)
        obtain ⟨target, htarget, haway⟩ := hhead message hmessage hselected
        cases mainQueues with
        | nil => cases htarget
        | cons first rest =>
          injection htarget with htarget
          subst htarget
          exact sum_tallies_of_away haway
    rw [hsum] at hmemoryRun
    rw [hcount hhead] at hmongoRun
    refine ⟨memoryAfter, mongoAfter, hmemoryRun, hmongoRun, hredriven.mpr ?_⟩
    intro message hmessage hselected
    obtain ⟨target, htarget, haway, halike⟩ := hcondition message hmessage hselected
    refine ⟨target, ?_, halike⟩
    cases mainQueues with
    | nil => cases htarget
    | cons first rest =>
      rw [List.find?_cons, decide_eq_false (by
        injection htarget with htarget
        rw [htarget]
        exact haway)]
      exact htarget

theorem redrivesMessage_iff_of_finds (request : Dto.RedriveMessageRequest)
    (hmemory : FindsMainQueues (memoryRepository random) now request.queueArn dlqQueue mainQueues
      memory lookedMemory)
    (hmongo : FindsMainQueues (mongoRepository random order fuel) now request.queueArn dlqQueue
      mainQueues mongo lookedMongo)
    (hmain : mainQueues ≠ [])
    (htargets : ∀ queue ∈ mainQueues,
      queue.attributes.redrivePolicy.deadLetterTargetArn = dlqQueue.arn)
    (hsame : SameMessages memory.store mongo.store) :
    RedrivesMessage random order fuel now request dlqQueue mainQueues memory mongo ↔
      ∀ message ∈ memory.store.messages.values,
        isRedriven dlqQueue (some request.messageId) message = true →
        ∃ target, mainQueues.find? (fun queue => !decide (queue.arn = dlqQueue.arn)) = some target ∧
          RedrivesAlike now mainQueues target message := by
  obtain ⟨memoryAfter, hmemoryRun, hvalues, hkeyed⟩ :=
    run_redriveMessage_memory request hmemory hmain hsame.keyed
  obtain ⟨mongoAfter, hmongoRun, hdocuments⟩ :=
    run_redriveMessage_mongo request hmongo hmain hsame.stored
  rw [← redriven_iff hsame htargets ⟨hkeyed, hvalues, hdocuments⟩]
  constructor
  · rintro ⟨memoryLast, mongoLast, hmemoryLast, hmongoLast, hmoved⟩
    rw [hmemoryRun] at hmemoryLast
    rw [hmongoRun] at hmongoLast
    injection hmemoryLast with _ hmemoryLast
    injection hmongoLast with _ hmongoLast
    subst hmemoryLast hmongoLast
    exact hmoved
  · exact fun hmoved => ⟨memoryAfter, mongoAfter, hmemoryRun, hmongoRun, hmoved⟩

end Theorem

section Samples

def deadQueue : Queue :=
  { region := "eu-central-1", oid := "6630f2", name := "dead",
    url := "http://sqs.eu-central-1.localhost:4566/000000000000/dead",
    arn := "arn:aws:sqs:eu-central-1:000000000000:dead" }

def mainQueue : Queue :=
  { orderQueue with
    attributes := { redrivePolicy := { deadLetterTargetArn := deadQueue.arn } } }

def deadMessage (receiptHandle queueName : String) (reset : Time) : Message :=
  { orderMessage 3 with queueArn := deadQueue.arn, queueName, receiptHandle, reset }

def MemoryStore.dead (message : Message) : MemoryStore :=
  ⟨⟨[(mainQueue.oid, mainQueue), (deadQueue.oid, deadQueue)], by decide⟩,
    (MemoryStore.single message).messages⟩

def MongoStore.dead (message : Message) : MongoStore :=
  ⟨[MongoRepository.withObjectId mainQueue.oid mainQueue.toDocument,
      MongoRepository.withObjectId deadQueue.oid deadQueue.toDocument],
    [MongoRepository.withObjectId message.oid message.toDocument]⟩

theorem sameMessages_dead {message : Message} (hreset : 0 < message.reset)
    (hcreated : 0 < message.created) (hmodified : 0 < message.modified)
    (hfits : FitsInt32 message.retries) : SameMessages (.dead message) (.dead message) := by
  obtain ⟨hkeyed, hstored, hreadable⟩ := sameMessages_single hreset hcreated hmodified hfits
  exact ⟨hkeyed, hstored, hreadable⟩

theorem findsMainQueues_memory (message : Message) :
    ∃ looked, FindsMainQueues (memoryRepository RandomSource.growing) 2000 deadQueue.arn deadQueue
      [mainQueue] ⟨.dead message, 0⟩ looked :=
  ⟨_, rfl, _, rfl, rfl⟩

theorem findsMainQueues_mongo (message : Message) :
    ∃ looked, FindsMainQueues (mongoRepository RandomSource.growing (fun _ _ => true) 10) 2000
      deadQueue.arn deadQueue [mainQueue] ⟨.dead message, 0⟩ looked :=
  ⟨_, rfl, _, rfl, rfl⟩

/-- A message sent to the main queue once, redriven when its name, its handle and
its reset time are right already. -/
def redrivable : Message := deadMessage "" "orders" 32000

def sentToDead : Message := deadMessage "sent" "dead" 1000

/-- A redrive of all messages does what it is for exactly when the first main
queue is another queue and every message of the dead-letter queue is redriven
alike; a redrive of one message, exactly when some main queue is another queue
and the message is redriven alike to the first such. -/
theorem redrives_iff (random : RandomSource) (order : Option Value → Option Value → Bool)
    (fuel : Nat) (now : Time) (queueArn : String) (dlqQueue : Queue) (mainQueues : List Queue)
    (memory lookedMemory : World MemoryStore) (mongo lookedMongo : World MongoStore)
    (hmemory : FindsMainQueues (memoryRepository random) now queueArn dlqQueue mainQueues memory
      lookedMemory)
    (hmongo : FindsMainQueues (mongoRepository random order fuel) now queueArn dlqQueue mainQueues
      mongo lookedMongo)
    (hmain : mainQueues ≠ [])
    (htargets : ∀ queue ∈ mainQueues,
      queue.attributes.redrivePolicy.deadLetterTargetArn = dlqQueue.arn)
    (hsame : SameMessages memory.store mongo.store) :
    (∀ request : Dto.RedriveMessagesRequest, request.queueArn = queueArn →
      (RedrivesMessages random order fuel now request dlqQueue mainQueues memory mongo ↔
        ∀ message ∈ memory.store.messages.values, isRedriven dlqQueue none message = true →
          ∃ target, mainQueues.head? = some target ∧ target.arn ≠ dlqQueue.arn ∧
            RedrivesAlike now mainQueues target message)) ∧
    ∀ request : Dto.RedriveMessageRequest, request.queueArn = queueArn →
      (RedrivesMessage random order fuel now request dlqQueue mainQueues memory mongo ↔
        ∀ message ∈ memory.store.messages.values,
          isRedriven dlqQueue (some request.messageId) message = true →
          ∃ target, mainQueues.find? (fun queue => !decide (queue.arn = dlqQueue.arn)) =
              some target ∧
            RedrivesAlike now mainQueues target message) := by
  constructor
  · intro request hqueue
    subst hqueue
    exact redrivesMessages_iff_of_finds request hmemory hmongo hmain htargets hsame
  · intro request hqueue
    subst hqueue
    exact redrivesMessage_iff_of_finds request hmemory hmongo hmain htargets hsame

/-- A message that loses nothing is redriven. -/
theorem redrives_redrivable :
    RedrivesMessages RandomSource.growing (fun _ _ => true) 10 2000
        ⟨{}, deadQueue.arn⟩ deadQueue [mainQueue] ⟨.dead redrivable, 0⟩ ⟨.dead redrivable, 0⟩ ∧
      RedrivesMessage RandomSource.growing (fun _ _ => true) 10 2000
        ⟨{}, deadQueue.arn, "m-1"⟩ deadQueue [mainQueue] ⟨.dead redrivable, 0⟩
        ⟨.dead redrivable, 0⟩ := by
  obtain ⟨lookedMemory, hmemory⟩ := findsMainQueues_memory redrivable
  obtain ⟨lookedMongo, hmongo⟩ := findsMainQueues_mongo redrivable
  have hredrives := redrives_iff RandomSource.growing (fun _ _ => true) 10 2000 deadQueue.arn
    deadQueue [mainQueue] ⟨.dead redrivable, 0⟩ lookedMemory ⟨.dead redrivable, 0⟩ lookedMongo
    hmemory hmongo (List.cons_ne_nil _ _)
    (fun queue hqueue => by rw [List.mem_singleton.mp hqueue]; rfl)
    (sameMessages_dead (by decide) (by decide) (by decide) (by decide))
  have halike : RedrivesAlike 2000 [mainQueue] mainQueue redrivable :=
    ⟨rfl, rfl, rfl, mainQueue, List.mem_singleton.mpr rfl, rfl, rfl, by decide⟩
  constructor
  · refine (hredrives.1 _ rfl).mpr fun message hmessage _ => ?_
    rw [List.mem_singleton.mp hmessage]
    exact ⟨mainQueue, rfl, by decide, halike⟩
  · refine (hredrives.2 _ rfl).mpr fun message hmessage _ => ?_
    rw [List.mem_singleton.mp hmessage]
    exact ⟨mainQueue, rfl, halike⟩

/-- The in-memory repository leaves the handle of the message in place. -/
theorem not_redrives_sentToDead :
    SameMessages (.dead sentToDead) (.dead sentToDead) ∧
      ¬ RedrivesMessages RandomSource.growing (fun _ _ => true) 10 2000
        ⟨{}, deadQueue.arn⟩ deadQueue [mainQueue] ⟨.dead sentToDead, 0⟩ ⟨.dead sentToDead, 0⟩ := by
  have hsame : SameMessages (.dead sentToDead) (.dead sentToDead) :=
    sameMessages_dead (by decide) (by decide) (by decide) (by decide)
  refine ⟨hsame, ?_⟩
  obtain ⟨lookedMemory, hmemory⟩ := findsMainQueues_memory sentToDead
  obtain ⟨lookedMongo, hmongo⟩ := findsMainQueues_mongo sentToDead
  intro hredrives
  have halike := (redrivesMessages_iff_of_finds ⟨{}, deadQueue.arn⟩ hmemory hmongo
    (List.cons_ne_nil _ _) (fun queue hqueue => by rw [List.mem_singleton.mp hqueue]; rfl)
    hsame).mp hredrives sentToDead (List.mem_singleton.mpr rfl) (by decide)
  obtain ⟨target, -, -, hhandle, -⟩ := halike
  revert hhandle
  decide

end Samples


end AwsMock.Sqs
