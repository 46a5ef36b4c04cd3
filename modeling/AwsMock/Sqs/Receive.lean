import AwsMock.Sqs.Repository
import AwsMock.Sqs.StoredMessages

/-! # Receiving from the two repositories

The in-memory receive walks its map once and stops at the limit. The MongoDB
receive claims one document after the other until the list is full or nothing
is ready. From equal stores they agree as long as the walk meets no message
that has used up its retries, and the limit is not zero while two messages are
ready.
-/

namespace AwsMock.Sqs

open Foundation

/-- The two stores hold the same messages: keys are object ids, and each
document reads back as the message at its place. -/
structure SameMessages (memory : MemoryStore) (mongo : MongoStore) : Prop where
  keyed : ∀ entry ∈ memory.messages.entries, entry.2.oid = entry.1
  stored : List.Forall₂ Message.StoredAs memory.messages.values mongo.messages
  readable : ∀ message ∈ memory.messages.values, message.reread = message

def Message.isReady (queueArn : String) (message : Message) : Bool :=
  message.isIn queueArn && message.hasStatus .initial

/-- The messages a receive with this limit takes when its list has `count`
messages already: ready ones of the queue in order, and at least one of them
when the limit is not negative. -/
def takenMessages (queueArn : String) (maxResult : Int) (count : Nat) (messages : List Message) :
    List Message :=
  let ready := messages.filter (Message.isReady queueArn)
  if maxResult < 0 then ready else ready.take (max 1 maxResult.toNat - count)

theorem Message.reread_eq_iff {message : Message} :
    message.reread = message ↔ FitsInt32 message.retries := by
  constructor
  · intro heq
    have hretries : toInt32 message.retries = message.retries := congrArg Message.retries heq
    rw [← hretries]
    exact toInt32_fits message.retries
  · intro hfits
    rw [reread, toInt32_of_fits hfits.1 hfits.2]

theorem sameMessages_single {message : Message} (hreset : 0 < message.reset)
    (hcreated : 0 < message.created) (hmodified : 0 < message.modified)
    (hfits : FitsInt32 message.retries) :
    SameMessages (.single message) (.single message) where
  keyed := by
    intro entry hentry
    rw [List.mem_singleton.mp hentry]
  stored := List.Forall₂.cons
    (Message.storedAs_toDocument message message.oid (Or.inl hreset) (Or.inl hcreated)
      (Or.inl hmodified)) List.Forall₂.nil
  readable := by
    intro other hother
    rw [List.mem_singleton.mp hother, Message.reread_eq_iff]
    exact hfits

section Walk

variable (random : RandomSource) (queueArn : String) (reset : Time) (maxResult : Int)
variable (dlQueueArn : String) (maxRetries : Int)

open MemoryRepository

def walk (messages : List Message) (state : Nat × List Message) :
    List Message × Nat × List Message :=
  UnorderedMap.visitValues
    (receiveRound random queueArn reset maxResult dlQueueArn maxRetries) messages state

variable {random queueArn reset maxResult dlQueueArn maxRetries}
variable {message : Message} {rest : List Message} {draws : Nat} {messageList : List Message}

def taken (random : RandomSource) (reset : Time) (dlQueueArn : String) (maxRetries : Int)
    (draws : Nat) (message : Message) : Message :=
  takeMessage reset dlQueueArn maxRetries (random.receiptHandle draws) message

def drawsAfter (dlQueueArn : String) (maxRetries : Int) (draws : Nat) (message : Message) : Nat :=
  if isDead dlQueueArn maxRetries (message.retries + 1) then draws else draws + 1

theorem walk_skip (hready : message.isReady queueArn = false) :
    walk random queueArn reset maxResult dlQueueArn maxRetries (message :: rest)
        (draws, messageList) =
      (message :: (walk random queueArn reset maxResult dlQueueArn maxRetries rest
          (draws, messageList)).1,
        (walk random queueArn reset maxResult dlQueueArn maxRetries rest
          (draws, messageList)).2) := by
  rw [Message.isReady] at hready
  simp [walk, UnorderedMap.visitValues, receiveRound, hready]

theorem walk_stop (hready : message.isReady queueArn = true)
    (hlimit : reachesLimit maxResult (messageList.length + 1) = true) :
    walk random queueArn reset maxResult dlQueueArn maxRetries (message :: rest)
        (draws, messageList) =
      (taken random reset dlQueueArn maxRetries draws message :: rest,
        drawsAfter dlQueueArn maxRetries draws message,
        messageList ++ [taken random reset dlQueueArn maxRetries draws message]) := by
  rw [Message.isReady] at hready
  simp [walk, UnorderedMap.visitValues, receiveRound, hready, hlimit, taken, drawsAfter]

theorem walk_take (hready : message.isReady queueArn = true)
    (hlimit : reachesLimit maxResult (messageList.length + 1) = false) :
    walk random queueArn reset maxResult dlQueueArn maxRetries (message :: rest)
        (draws, messageList) =
      (taken random reset dlQueueArn maxRetries draws message ::
          (walk random queueArn reset maxResult dlQueueArn maxRetries rest
            (drawsAfter dlQueueArn maxRetries draws message,
              messageList ++ [taken random reset dlQueueArn maxRetries draws message])).1,
        (walk random queueArn reset maxResult dlQueueArn maxRetries rest
            (drawsAfter dlQueueArn maxRetries draws message,
              messageList ++ [taken random reset dlQueueArn maxRetries draws message])).2) := by
  rw [Message.isReady] at hready
  simp [walk, UnorderedMap.visitValues, receiveRound, hready, hlimit, taken, drawsAfter]

@[simp] theorem taken_retries :
    (taken random reset dlQueueArn maxRetries draws message).retries = message.retries + 1 := by
  rw [taken, takeMessage]
  simp only
  split <;> rfl

@[simp] theorem taken_oid :
    (taken random reset dlQueueArn maxRetries draws message).oid = message.oid := by
  rw [taken, takeMessage]
  simp only
  split <;> rfl

theorem taken_of_dead (hdead : isDead dlQueueArn maxRetries (message.retries + 1) = true) :
    taken random reset dlQueueArn maxRetries draws message =
      { message with
        retries := message.retries + 1
        queueArn := dlQueueArn
        queueName := AwsUtils.convertSQSQueueArnToName dlQueueArn
        receiptHandle := ""
        status := .initial } := by
  rw [taken, takeMessage]
  simp only
  rw [if_pos hdead]

theorem taken_of_alive (halive : isDead dlQueueArn maxRetries (message.retries + 1) = false) :
    taken random reset dlQueueArn maxRetries draws message =
      { message with
        retries := message.retries + 1
        reset
        status := .invisible
        receiptHandle := random.receiptHandle draws } := by
  rw [taken, takeMessage]
  simp only
  rw [if_neg (by rw [halive]; exact Bool.false_ne_true)]

variable (random queueArn reset maxResult dlQueueArn maxRetries) in
theorem forall₂_walk (messages : List Message) (draws : Nat) (messageList : List Message) :
    List.Forall₂ (fun before after => after = before ∨ before.isReady queueArn = true ∧
          ∃ draw, after = taken random reset dlQueueArn maxRetries draw before)
      messages
      (walk random queueArn reset maxResult dlQueueArn maxRetries messages
        (draws, messageList)).1 := by
  induction messages generalizing draws messageList with
  | nil => exact List.Forall₂.nil
  | cons message rest ih =>
    cases hready : message.isReady queueArn with
    | false =>
      rw [walk_skip hready]
      exact List.Forall₂.cons (Or.inl rfl) (ih draws messageList)
    | true =>
      cases hlimit : reachesLimit maxResult (messageList.length + 1) with
      | true =>
        rw [walk_stop hready hlimit]
        exact List.Forall₂.cons (Or.inr ⟨hready, draws, rfl⟩)
          (List.forall₂_same.mpr fun _ _ => Or.inl rfl)
      | false =>
        rw [walk_take hready hlimit]
        exact List.Forall₂.cons (Or.inr ⟨hready, draws, rfl⟩) (ih _ _)

variable (messages : List Message)

theorem oids_walk :
    (walk random queueArn reset maxResult dlQueueArn maxRetries messages
      (draws, messageList)).1.map Message.oid = messages.map Message.oid := by
  have hvalues := forall₂_walk random queueArn reset maxResult dlQueueArn maxRetries messages
    draws messageList
  rw [← List.forall₂_eq_eq_eq, List.forall₂_map_left_iff, List.forall₂_map_right_iff]
  refine hvalues.flip.imp fun after before hvalue => ?_
  rcases hvalue with rfl | ⟨-, draw, rfl⟩
  · rfl
  · exact taken_oid

theorem mem_walk_list_of_mem {messages : List Message} (hmem : message ∈ messageList) :
    message ∈ (walk random queueArn reset maxResult dlQueueArn maxRetries messages
      (draws, messageList)).2.2 := by
  induction messages generalizing draws messageList with
  | nil => exact hmem
  | cons head rest ih =>
    cases hready : head.isReady queueArn with
    | false =>
      rw [walk_skip hready]
      exact ih hmem
    | true =>
      cases hlimit : reachesLimit maxResult (messageList.length + 1) with
      | true =>
        rw [walk_stop hready hlimit]
        exact List.mem_append_left _ hmem
      | false =>
        rw [walk_take hready hlimit]
        exact ih (List.mem_append_left _ hmem)

def HasRoom (maxResult : Int) (count : Nat) : Prop :=
  maxResult < 0 ∨ count < max 1 maxResult.toNat

theorem hasRoom_zero (maxResult : Int) : HasRoom maxResult 0 := by
  rw [HasRoom]
  omega

variable {count : Nat}

theorem HasRoom.succ (hlimit : reachesLimit maxResult (count + 1) = false) :
    HasRoom maxResult (count + 1) := by
  simp only [reachesLimit, Bool.and_eq_false_iff, decide_eq_false_iff_not] at hlimit
  rw [HasRoom]
  omega

theorem takenMessages_skip (hready : message.isReady queueArn = false) :
    takenMessages queueArn maxResult count (message :: rest) =
      takenMessages queueArn maxResult count rest := by
  simp [takenMessages, hready]

theorem takenMessages_take (hready : message.isReady queueArn = true)
    (hroom : HasRoom maxResult count) :
    takenMessages queueArn maxResult count (message :: rest) =
      message :: takenMessages queueArn maxResult (count + 1) rest := by
  simp only [takenMessages, List.filter_cons, hready, if_true]
  rcases hroom with hnegative | hroom
  · simp [hnegative]
  · have hsplit : max 1 maxResult.toNat - count = max 1 maxResult.toNat - (count + 1) + 1 := by
      omega
    split
    · rfl
    · rw [hsplit, List.take_succ_cons]

theorem takenMessages_full (hlimit : reachesLimit maxResult count = true)
    (hpositive : 0 < count) (messages : List Message) :
    takenMessages queueArn maxResult count messages = [] := by
  simp only [reachesLimit, Bool.and_eq_true, decide_eq_true_eq] at hlimit
  have hzero : max 1 maxResult.toNat - count = 0 := by omega
  rw [takenMessages, if_neg (by omega), hzero, List.take_zero]

variable (random reset dlQueueArn maxRetries draws messageList) in
theorem mem_walk_of_mem_taken {messages : List Message}
    (hroom : HasRoom maxResult messageList.length)
    (htaken : message ∈ takenMessages queueArn maxResult messageList.length messages) :
    ∃ draw, taken random reset dlQueueArn maxRetries draw message ∈
          (walk random queueArn reset maxResult dlQueueArn maxRetries messages
            (draws, messageList)).1 ∧
        taken random reset dlQueueArn maxRetries draw message ∈
          (walk random queueArn reset maxResult dlQueueArn maxRetries messages
            (draws, messageList)).2.2 := by
  induction messages generalizing draws messageList with
  | nil => simp [takenMessages] at htaken
  | cons head rest ih =>
    cases hready : head.isReady queueArn with
    | false =>
      rw [takenMessages_skip hready] at htaken
      obtain ⟨draw, hstore, hlist⟩ := ih draws messageList hroom htaken
      rw [walk_skip hready]
      exact ⟨draw, List.mem_cons_of_mem _ hstore, hlist⟩
    | true =>
      rw [takenMessages_take hready hroom] at htaken
      cases hlimit : reachesLimit maxResult (messageList.length + 1) with
      | true =>
        rw [takenMessages_full hlimit (Nat.succ_pos _), List.mem_singleton] at htaken
        subst htaken
        rw [walk_stop hready hlimit]
        exact ⟨draws, List.mem_cons_self, List.mem_append_right _ List.mem_cons_self⟩
      | false =>
        rw [walk_take hready hlimit]
        rcases List.mem_cons.mp htaken with rfl | hrest
        · exact ⟨draws, List.mem_cons_self,
            mem_walk_list_of_mem (List.mem_append_right _ List.mem_cons_self)⟩
        · have hlength : (messageList ++
              [taken random reset dlQueueArn maxRetries draws head]).length =
                messageList.length + 1 := List.length_append
          obtain ⟨draw, hstore, hlist⟩ := ih (drawsAfter dlQueueArn maxRetries draws head)
            (messageList ++ [taken random reset dlQueueArn maxRetries draws head])
            (hlength ▸ HasRoom.succ hlimit) (hlength ▸ hrest)
          exact ⟨draw, List.mem_cons_of_mem _ hstore, hlist⟩

variable (messageList) in
theorem of_mem_walk {messages : List Message} {found : Message}
    (hroom : HasRoom maxResult messageList.length) :
    (found ∈ (walk random queueArn reset maxResult dlQueueArn maxRetries messages
        (draws, messageList)).1 →
      found ∈ messages ∨ ∃ message ∈ takenMessages queueArn maxResult messageList.length messages,
          ∃ draw, found = taken random reset dlQueueArn maxRetries draw message) ∧
    (found ∈ (walk random queueArn reset maxResult dlQueueArn maxRetries messages
        (draws, messageList)).2.2 →
      found ∈ messageList ∨
        ∃ message ∈ takenMessages queueArn maxResult messageList.length messages,
          ∃ draw, found = taken random reset dlQueueArn maxRetries draw message) := by
  induction messages generalizing draws messageList with
  | nil => exact ⟨fun hmem => Or.inl hmem, fun hmem => Or.inl hmem⟩
  | cons head rest ih =>
    cases hready : head.isReady queueArn with
    | false =>
      obtain ⟨hstore, hlist⟩ := @ih draws messageList hroom
      rw [walk_skip hready, takenMessages_skip hready]
      refine ⟨fun hmem => ?_, hlist⟩
      rcases List.mem_cons.mp hmem with rfl | hmem
      · exact Or.inl List.mem_cons_self
      · exact (hstore hmem).imp_left (List.mem_cons_of_mem _)
    | true =>
      rw [takenMessages_take hready hroom]
      have hhead : ∃ message ∈ head ::
          takenMessages queueArn maxResult (messageList.length + 1) rest, ∃ draw,
            taken random reset dlQueueArn maxRetries draws head =
              taken random reset dlQueueArn maxRetries draw message :=
        ⟨head, List.mem_cons_self, draws, rfl⟩
      cases hlimit : reachesLimit maxResult (messageList.length + 1) with
      | true =>
        rw [walk_stop hready hlimit]
        refine ⟨fun hmem => ?_, fun hmem => ?_⟩
        · rcases List.mem_cons.mp hmem with rfl | hmem
          · exact Or.inr hhead
          · exact Or.inl (List.mem_cons_of_mem _ hmem)
        · rcases List.mem_append.mp hmem with hmem | hmem
          · exact Or.inl hmem
          · rw [List.mem_singleton.mp hmem]
            exact Or.inr hhead
      | false =>
        have hlength : (messageList ++
            [taken random reset dlQueueArn maxRetries draws head]).length =
              messageList.length + 1 := List.length_append
        obtain ⟨hstore, hlist⟩ := @ih (drawsAfter dlQueueArn maxRetries draws head)
          (messageList ++ [taken random reset dlQueueArn maxRetries draws head])
          (hlength ▸ HasRoom.succ hlimit)
        rw [hlength] at hstore hlist
        rw [walk_take hready hlimit]
        refine ⟨fun hmem => ?_, fun hmem => ?_⟩
        · rcases List.mem_cons.mp hmem with rfl | hmem
          · exact Or.inr hhead
          · rcases hstore hmem with hmem | ⟨message, hmessage, hfound⟩
            · exact Or.inl (List.mem_cons_of_mem _ hmem)
            · exact Or.inr ⟨message, List.mem_cons_of_mem _ hmessage, hfound⟩
        · rcases hlist hmem with hmem | ⟨message, hmessage, hfound⟩
          · rcases List.mem_append.mp hmem with hmem | hmem
            · exact Or.inl hmem
            · rw [List.mem_singleton.mp hmem]
              exact Or.inr hhead
          · exact Or.inr ⟨message, List.mem_cons_of_mem _ hmessage, hfound⟩

theorem of_mem_takenMessages {messages : List Message}
    (htaken : message ∈ takenMessages queueArn maxResult count messages) :
    message ∈ messages ∧ message.isReady queueArn = true := by
  rw [← List.mem_filter]
  rw [takenMessages] at htaken
  split at htaken
  · exact htaken
  · exact List.mem_of_mem_take htaken

theorem ready_of_walk_zero :
    (messages.filter (Message.isReady queueArn)).length ≤
      ((walk random queueArn reset 0 dlQueueArn maxRetries messages
        (draws, messageList)).1.filter (Message.isReady queueArn)).length + 1 := by
  induction messages with
  | nil => exact Nat.zero_le _
  | cons head rest ih =>
    cases hready : head.isReady queueArn with
    | false =>
      rw [walk_skip hready]
      simpa [hready] using ih
    | true =>
      have hlimit : reachesLimit 0 (messageList.length + 1) = true := by
        simp only [reachesLimit, Bool.and_eq_true, decide_eq_true_eq]
        omega
      rw [walk_stop hready hlimit, List.filter_cons, if_pos hready, List.length_cons]
      have hsublist : (rest.filter (Message.isReady queueArn)).Sublist
          ((taken random reset dlQueueArn maxRetries draws head :: rest).filter
            (Message.isReady queueArn)) :=
        (List.sublist_cons_self _ _).filter _
      exact Nat.succ_le_succ hsublist.length_le

theorem alive_of_taken_invisible
    (hclaimed : (taken random reset dlQueueArn maxRetries draws message).status = .invisible) :
    isDead dlQueueArn maxRetries (message.retries + 1) = false := by
  cases hdead : isDead dlQueueArn maxRetries (message.retries + 1) with
  | false => rfl
  | true =>
    rw [taken_of_dead hdead] at hclaimed
    cases hclaimed

theorem le_drawsAfter : draws ≤ drawsAfter dlQueueArn maxRetries draws message := by
  rw [drawsAfter]
  split
  · exact Nat.le_refl draws
  · exact Nat.le_succ draws

theorem le_walk_draws :
    draws ≤ (walk random queueArn reset maxResult dlQueueArn maxRetries messages
      (draws, messageList)).2.1 := by
  induction messages generalizing draws messageList with
  | nil => exact Nat.le_refl draws
  | cons head rest ih =>
    have hhead : draws ≤ drawsAfter dlQueueArn maxRetries draws head := le_drawsAfter
    cases hready : head.isReady queueArn with
    | false =>
      rw [walk_skip hready]
      exact ih
    | true =>
      cases hlimit : reachesLimit maxResult (messageList.length + 1) with
      | true =>
        rw [walk_stop hready hlimit]
        exact hhead
      | false =>
        rw [walk_take hready hlimit]
        exact Nat.le_trans hhead ih

def ClaimedApart (first second : Message) : Prop :=
  first.status = .invisible → second.status = .invisible →
    first.receiptHandle ≠ second.receiptHandle

instance : Std.Symm ClaimedApart where
  symm _ _ hapart hsecond hfirst heq := hapart hfirst hsecond heq.symm

/-- What the walk hands out: ready messages of the store, as it leaves them,
each claimed one under a handle drawn for it alone. -/
structure HandsOut (random : RandomSource) (reset : Time) (dlQueueArn : String) (maxRetries : Int)
    (messages : List Message) (draws : Nat) (after : List Message) (drawsAfter : Nat)
    (handed : List Message) : Prop where
  stored : ∀ message ∈ handed, message ∈ after
  kept : ∀ message ∈ after, message ∈ messages ∨ message ∈ handed
  taken : ∀ message ∈ handed, ∃ old ∈ messages, ∃ draw, draws ≤ draw ∧
    (isDead dlQueueArn maxRetries (old.retries + 1) = false → draw < drawsAfter) ∧
    message = taken random reset dlQueueArn maxRetries draw old
  distinct : handed.Pairwise ClaimedApart

variable (random queueArn reset maxResult dlQueueArn maxRetries draws messageList) in
/-- By induction on the messages not yet visited; `messageList` is what was
handed out before. -/
theorem handsOut_walk (messages : List Message) :
    ∃ handed, (walk random queueArn reset maxResult dlQueueArn maxRetries messages
        (draws, messageList)).2.2 = messageList ++ handed ∧
      HandsOut random reset dlQueueArn maxRetries messages draws
        (walk random queueArn reset maxResult dlQueueArn maxRetries messages (draws, messageList)).1
        (walk random queueArn reset maxResult dlQueueArn maxRetries messages
          (draws, messageList)).2.1 handed := by
  induction messages generalizing draws messageList with
  | nil =>
    refine ⟨[], (List.append_nil _).symm, ?_⟩
    exact ⟨by simp, fun message hmessage => Or.inl hmessage, by simp, List.Pairwise.nil⟩
  | cons head rest ih =>
    cases hready : head.isReady queueArn with
    | false =>
      rw [walk_skip hready]
      obtain ⟨handed, hlist, hhands⟩ := ih draws messageList
      refine ⟨handed, hlist, ?_, ?_, ?_, hhands.distinct⟩
      · exact fun message hmessage => List.mem_cons_of_mem _ (hhands.stored message hmessage)
      · intro message hmessage
        rcases List.mem_cons.mp hmessage with rfl | hrest
        · exact Or.inl List.mem_cons_self
        · exact (hhands.kept message hrest).imp_left (List.mem_cons_of_mem _)
      · intro message hmessage
        obtain ⟨old, hold, hrest⟩ := hhands.taken message hmessage
        exact ⟨old, List.mem_cons_of_mem _ hold, hrest⟩
    | true =>
      have hfirst : isDead dlQueueArn maxRetries (head.retries + 1) = false →
          drawsAfter dlQueueArn maxRetries draws head = draws + 1 := by
        intro halive
        rw [drawsAfter, halive]
        rfl
      cases hlimit : reachesLimit maxResult (messageList.length + 1) with
      | true =>
        rw [walk_stop hready hlimit]
        refine ⟨[taken random reset dlQueueArn maxRetries draws head], rfl, ?_, ?_, ?_,
          List.pairwise_singleton _ _⟩
        · intro message hmessage
          rw [List.mem_singleton.mp hmessage]
          exact List.mem_cons_self
        · intro message hmessage
          rcases List.mem_cons.mp hmessage with rfl | hrest
          · exact Or.inr (List.mem_singleton.mpr rfl)
          · exact Or.inl (List.mem_cons_of_mem _ hrest)
        · intro message hmessage
          refine ⟨head, List.mem_cons_self, draws, Nat.le_refl _, fun halive => ?_,
            List.mem_singleton.mp hmessage⟩
          simp only
          rw [hfirst halive]
          exact Nat.lt_succ_self _
      | false =>
        rw [walk_take hready hlimit]
        obtain ⟨handed, hlist, hhands⟩ := ih (drawsAfter dlQueueArn maxRetries draws head)
          (messageList ++ [taken random reset dlQueueArn maxRetries draws head])
        have hforward : draws ≤ drawsAfter dlQueueArn maxRetries draws head :=
          le_drawsAfter
        refine ⟨taken random reset dlQueueArn maxRetries draws head :: handed, ?_, ?_, ?_, ?_, ?_⟩
        · rw [hlist, List.append_assoc, List.singleton_append]
        · intro message hmessage
          rcases List.mem_cons.mp hmessage with rfl | hrest
          · exact List.mem_cons_self
          · exact List.mem_cons_of_mem _ (hhands.stored message hrest)
        · intro message hmessage
          rcases List.mem_cons.mp hmessage with rfl | hrest
          · exact Or.inr List.mem_cons_self
          · exact (hhands.kept message hrest).imp (List.mem_cons_of_mem _) (List.mem_cons_of_mem _)
        · intro message hmessage
          rcases List.mem_cons.mp hmessage with rfl | hrest
          · refine ⟨head, List.mem_cons_self, draws, Nat.le_refl _, fun halive => ?_, rfl⟩
            rw [hfirst halive]
            exact le_walk_draws rest
          · obtain ⟨old, hold, draw, hdraw, hbound, heq⟩ := hhands.taken message hrest
            exact ⟨old, List.mem_cons_of_mem _ hold, draw, Nat.le_trans hforward hdraw, hbound, heq⟩
        · refine List.Pairwise.cons ?_ hhands.distinct
          intro message hmessage hclaimed hother
          obtain ⟨old, -, draw, hdraw, -, rfl⟩ := hhands.taken message hmessage
          -- a claimed message was not dead, so its handle is the one of its draw
          have halive := alive_of_taken_invisible hclaimed
          rw [taken_of_alive halive, taken_of_alive (alive_of_taken_invisible hother)]
          rw [hfirst halive] at hdraw
          exact fun hhandle => Nat.ne_of_lt hdraw (random.receiptHandle_injective hhandle)

end Walk

section Memory

variable {random : RandomSource} {now : Time} {queueArn : String} {visibility maxResult : Int}
variable {dlQueueArn : String} {maxRetries : Int} {draws : Nat} {memory : MemoryStore}

def receivedStore (random : RandomSource) (now : Time) (queueArn : String)
    (visibility maxResult : Int) (dlQueueArn : String) (maxRetries : Int) (draws : Nat)
    (memory : MemoryStore) : MemoryStore :=
  { memory with
    messages := (memory.messages.visit
      (MemoryRepository.receiveRound random queueArn (now + seconds visibility) maxResult
        dlQueueArn maxRetries) (draws, [])).1 }

theorem values_receivedStore :
    (receivedStore random now queueArn visibility maxResult dlQueueArn maxRetries draws
        memory).messages.values =
      (walk random queueArn (now + seconds visibility) maxResult dlQueueArn maxRetries
        memory.messages.values (draws, [])).1 :=
  congrArg Prod.fst (UnorderedMap.visit_eq memory.messages _ _)

theorem keyed_receivedStore (hkeyed : ∀ entry ∈ memory.messages.entries, entry.2.oid = entry.1) :
    ∀ entry ∈ (receivedStore random now queueArn visibility maxResult dlQueueArn maxRetries draws
      memory).messages.entries, entry.2.oid = entry.1 := by
  intro entry hentry
  obtain ⟨old, hold, hkey, hvalue⟩ := UnorderedMap.mem_visitEntries hentry
  rw [← hkey]
  rcases hvalue with hsame | ⟨before, hround⟩
  · rw [hsame, hkeyed old hold]
  · rw [hround, ← hkeyed old hold, MemoryRepository.receiveRound]
    split
    · exact taken_oid
    · rfl

theorem run_receiveMessages_memory {held : List Mutex} (hfree : Mutex.sqsMessage ∉ held) :
    (MemoryRepository.receiveMessages random now queueArn visibility maxResult dlQueueArn
        maxRetries []).run held ⟨memory, draws⟩ =
      .returns (walk random queueArn (now + seconds visibility) maxResult dlQueueArn maxRetries
          memory.messages.values (draws, [])).2.2
        ⟨receivedStore random now queueArn visibility maxResult dlQueueArn maxRetries draws memory,
          (walk random queueArn (now + seconds visibility) maxResult dlQueueArn maxRetries
            memory.messages.values (draws, [])).2.1⟩ := by
  rw [MemoryRepository.receiveMessages, Action.run_scopedLock_free hfree,
    Call.run_loop, walk, ← UnorderedMap.visit_eq]
  rfl

end Memory

end AwsMock.Sqs
