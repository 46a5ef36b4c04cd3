import AwsMock.Sqs.Receive

/-! # Retention in the two repositories

The MongoDB repository deletes what is older than the retention period. The
in-memory repository looks for delayed messages that are due instead, and
deletes them through a function that takes the lock it holds.
-/

namespace AwsMock.Sqs

open Foundation

/-- Whether a message of the queue is older than the retention period. -/
def Message.isExpired (queueArn : String) (bound : Time) (message : Message) : Bool :=
  message.isIn queueArn && decide (message.created < bound)

def Message.isDue (queueArn : String) (now : Time) (message : Message) : Bool :=
  message.isIn queueArn && message.hasStatus .delayed && decide (message.reset < now)

namespace MemoryRepository

variable {now : Time} {queueArn : String} {world : World MemoryStore}

def retentionRound (now : Time) (queueArn : String) (count : Int) (message : Message) :
    MemoryCall Int :=
  if message.isDue queueArn now then do
    return count + (← deleteMessage message.receiptHandle)
  else return count

theorem messageRetention_eq (retentionPeriod : Int) :
    messageRetention now queueArn retentionPeriod =
      Action.scopedLock .sqsMessage (do
        (← readMessages).values.foldlM (retentionRound now queueArn) 0) := rfl

theorem run_retention_of_none {messages : List Message} {held : List Mutex} {count : Int}
    (hnone : ∀ message ∈ messages, message.isDue queueArn now = false) :
    (messages.foldlM (retentionRound now queueArn) count).run held world =
      .returns count world := by
  induction messages with
  | nil => rfl
  | cons message rest ih =>
    rw [List.foldlM_cons, retentionRound, hnone message List.mem_cons_self]
    exact ih fun other hother => hnone other (List.mem_cons_of_mem _ hother)

theorem run_retention_of_due {messages : List Message} {count : Int} {message : Message}
    (hmem : message ∈ messages) (hdue : message.isDue queueArn now = true) :
    (messages.foldlM (retentionRound now queueArn) count).run [.sqsMessage] world =
      .halts .blocked world := by
  induction messages with
  | nil => cases hmem
  | cons head rest ih =>
    rw [List.foldlM_cons, retentionRound]
    cases hhead : head.isDue queueArn now with
    | true =>
      rw [if_pos rfl, deleteMessage, Action.run_bind, Action.run_bind,
        Action.run_scopedLock_held List.mem_cons_self]
      rfl
    | false =>
      refine ih ?_
      rcases List.mem_cons.mp hmem with rfl | hrest
      · rw [hdue] at hhead
        cases hhead
      · exact hrest

theorem run_messageRetention_of_none {retentionPeriod : Int}
    (hnone : ∀ message ∈ world.store.messages.values, message.isDue queueArn now = false) :
    (messageRetention now queueArn retentionPeriod).run [] world = .returns 0 world := by
  rw [messageRetention_eq, Action.run_scopedLock_free List.not_mem_nil]
  exact run_retention_of_none hnone

theorem run_messageRetention_of_due {retentionPeriod : Int} {message : Message}
    (hmem : message ∈ world.store.messages.values) (hdue : message.isDue queueArn now = true) :
    (messageRetention now queueArn retentionPeriod).run [] world = .halts .blocked world := by
  rw [messageRetention_eq, Action.run_scopedLock_free List.not_mem_nil]
  exact run_retention_of_due hmem hdue

end MemoryRepository

namespace MongoRepository

variable {now : Time} {queueArn : String} {retentionPeriod : Int}

theorem not_accepts_retention {message : Message} {document : Document} {bound : Time}
    (hstored : message.StoredAs document) (hfresh : message.isExpired queueArn bound = false) :
    Filter.accepts [fieldIs "queueArn" queueArn, (["created"], .lt bound)] document = false := by
  rw [Filter.accepts_cons, Filter.accepts_cons, Filter.accepts_nil, Bool.and_true]
  rw [Message.isExpired, Bool.and_eq_false_iff] at hfresh
  rw [Bool.and_eq_false_iff]
  rcases hfresh with hqueue | hfresh
  · exact Or.inl ((hstored.holds_queueArn queueArn).trans hqueue)
  · right
    rcases hstored.created with hdate | ⟨hnull, -⟩
    · simpa [Condition.holds, hdate] using hfresh
    · simp [Condition.holds, hnull]

theorem run_messageRetention_of_fresh {messages : List Message} {world : World MongoStore}
    (hstored : List.Forall₂ Message.StoredAs messages world.store.messages)
    (hfresh : ∀ message ∈ messages,
      message.isExpired queueArn (now - seconds retentionPeriod) = false) :
    (messageRetention now queueArn retentionPeriod).run [] world = .returns 0 world := by
  have hnone : ∀ document ∈ world.store.messages, Filter.accepts [fieldIs "queueArn" queueArn,
        (["created"], .lt (now - seconds retentionPeriod))] document = false := by
    intro document hdocument
    obtain ⟨message, hmessage, hstands⟩ := exists_of_forall₂_right hstored hdocument
    exact not_accepts_retention hstands (hfresh message hmessage)
  have hdelete : Collection.deleteMany [fieldIs "queueArn" queueArn,
      (["created"], .lt (now - seconds retentionPeriod))] world.store.messages =
        world.store.messages := by
    refine List.filter_eq_self.mpr fun document hdocument => ?_
    rw [hnone document hdocument]
    rfl
  have hcount : Collection.countDocuments [fieldIs "queueArn" queueArn,
      (["created"], .lt (now - seconds retentionPeriod))] world.store.messages = 0 := by
    refine List.countP_eq_zero.mpr fun document hdocument => ?_
    rw [hnone document hdocument]
    exact Bool.false_ne_true
  simp [messageRetention, readMessages, writeMessages, hdelete, hcount]

end MongoRepository

section Agreement

variable {now : Time} {queueArn : String} {retentionPeriod : Int} {draws : Nat}
variable {memory : MemoryStore} {mongo : MongoStore}

/-- What a retention is for: both repositories return the number of messages of
the queue that are older than the period, and keep exactly the others. -/
def RetainsAlike (now : Time) (queueArn : String) (retentionPeriod : Int) (draws : Nat)
    (memory : MemoryStore) (mongo : MongoStore) : Prop :=
  ∃ memoryAfter mongoAfter,
    (MemoryRepository.messageRetention now queueArn retentionPeriod).run [] ⟨memory, draws⟩ =
      .returns (memory.messages.values.countP
          (Message.isExpired queueArn (now - seconds retentionPeriod))) memoryAfter ∧
    (MongoRepository.messageRetention now queueArn retentionPeriod).run [] ⟨mongo, draws⟩ = .returns
        (memory.messages.values.countP
          (Message.isExpired queueArn (now - seconds retentionPeriod))) mongoAfter ∧
    memoryAfter.store.messages.values = memory.messages.values.filter (fun message =>
      !message.isExpired queueArn (now - seconds retentionPeriod)) ∧
    SameMessages memoryAfter.store mongoAfter.store

/-- The two retentions do what they are for exactly when no message of the
queue is delayed and due, and none is older than the period. -/
theorem retainsAlike_iff (now : Time) (queueArn : String) (retentionPeriod : Int) (draws : Nat)
    (memory : MemoryStore) (mongo : MongoStore) (hsame : SameMessages memory mongo) :
    RetainsAlike now queueArn retentionPeriod draws memory mongo ↔
      ∀ message ∈ memory.messages.values, message.isDue queueArn now = false ∧
          message.isExpired queueArn (now - seconds retentionPeriod) = false := by
  constructor
  · rintro ⟨memoryAfter, mongoAfter, hmemory, -, hkept, -⟩ message hmessage
    have hnone : ∀ other ∈ memory.messages.values, other.isDue queueArn now = false := by
      intro other hother
      rw [← Bool.not_eq_true]
      intro hdue
      rw [MemoryRepository.run_messageRetention_of_due hother hdue] at hmemory
      cases hmemory
    refine ⟨hnone message hmessage, ?_⟩
    rw [MemoryRepository.run_messageRetention_of_none hnone] at hmemory
    injection hmemory with _ hafter
    subst hafter
    simpa using List.filter_eq_self.mp hkept.symm message hmessage
  · intro hquiet
    have hfresh : ∀ message ∈ memory.messages.values,
        message.isExpired queueArn (now - seconds retentionPeriod) = false :=
      fun message hmessage => (hquiet message hmessage).2
    have hcount : memory.messages.values.countP
        (Message.isExpired queueArn (now - seconds retentionPeriod)) = 0 :=
      List.countP_eq_zero.mpr fun message hmessage => by simp [hfresh message hmessage]
    rw [RetainsAlike, hcount]
    refine ⟨⟨memory, draws⟩, ⟨mongo, draws⟩,
      MemoryRepository.run_messageRetention_of_none fun message hmessage =>
        (hquiet message hmessage).1,
      MongoRepository.run_messageRetention_of_fresh hsame.stored hfresh, ?_, hsame⟩
    exact (List.filter_eq_self.mpr fun message hmessage => by simp [hfresh message hmessage]).symm

/-- A message that is neither due nor expired is kept by both. -/
theorem retainsAlike_fresh :
    RetainsAlike 2000 "arn:aws:sqs:eu-central-1:000000000000:orders" 345600 0
      (.single (orderMessage 0)) (.single (orderMessage 0)) :=
  (retainsAlike_iff 2000 "arn:aws:sqs:eu-central-1:000000000000:orders" 345600 0
    (.single (orderMessage 0)) (.single (orderMessage 0))
    (sameMessages_single (by decide) (by decide) (by decide) (by decide))).mpr
    fun message hmessage => by
      rw [List.mem_singleton.mp hmessage]
      decide

/-- A message older than the period stays in the in-memory repository. -/
theorem not_retainsAlike_expired :
    SameMessages (.single (orderMessage 0)) (.single (orderMessage 0)) ∧
      ¬ RetainsAlike 400000000 "arn:aws:sqs:eu-central-1:000000000000:orders" 345600 0
        (.single (orderMessage 0)) (.single (orderMessage 0)) := by
  refine ⟨sameMessages_single (by decide) (by decide) (by decide) (by decide), ?_⟩
  rintro ⟨memoryAfter, mongoAfter, hmemory, -, -, -⟩
  rw [MemoryRepository.run_messageRetention_of_none (by
    intro message hmessage
    rw [List.mem_singleton.mp hmessage]
    decide)] at hmemory
  injection hmemory with hcount _
  revert hcount
  decide

end Agreement

end AwsMock.Sqs
