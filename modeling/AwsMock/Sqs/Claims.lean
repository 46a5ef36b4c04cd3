import AwsMock.Sqs.ReceiveAgreement

/-! # What the claiming loop returns

Every round of the loop of the MongoDB repository takes the first ready message
out of the ready ones: it is claimed, or moved to the dead-letter queue. So the
loop returns live messages that were ready, and without a limit all of them.
-/

namespace AwsMock.Sqs

open Foundation MongoRepository

/-- Whether a message that is claimed has used up its retries. The loop reads
the retries back, in 32 bits. -/
def Message.isSpent (dlQueueArn : String) (maxRetries : Int) (message : Message) : Bool :=
  isDead dlQueueArn maxRetries (toInt32 (message.retries + 1))

/-- What one round leaves of the messages: the given one is ready no more, and
the others are as they were. -/
structure TakesOut (queueArn : String) (message : Message) (before after : List Message) :
    Prop where
  others : ∀ other ∈ before, other.oid ≠ message.oid → other ∈ after
  ready : ∀ other ∈ after, other.isReady queueArn = true → other ∈ before ∧ other.oid ≠ message.oid
  fewer : after.countP (Message.isReady queueArn) < before.countP (Message.isReady queueArn)
  oids : after.map Message.oid = before.map Message.oid

section TakesOut

variable {queueArn : String} {message : Message} {messages : List Message}

theorem takesOut_rewriteFirst {rewrite : Message → Message}
    (hnodup : (messages.map Message.oid).Nodup)
    (hfind : messages.find? (Message.isReady queueArn) = some message)
    (hready : (rewrite message).isReady queueArn = false)
    (hoid : (rewrite message).oid = message.oid) :
    TakesOut queueArn message messages
      (rewriteFirst (Message.isReady queueArn) rewrite messages) := by
  induction messages with
  | nil => cases hfind
  | cons head rest ih =>
    rw [List.map_cons, List.nodup_cons] at hnodup
    cases hhead : head.isReady queueArn with
    | true =>
      rw [List.find?_cons, hhead] at hfind
      injection hfind with hfind
      subst hfind
      rw [rewriteFirst_cons, if_pos hhead]
      constructor
      · intro other hother hne
        rcases List.mem_cons.mp hother with rfl | hrest
        · exact absurd rfl hne
        · exact List.mem_cons_of_mem _ hrest
      · intro other hother hopen
        rcases List.mem_cons.mp hother with rfl | hrest
        · rw [hready] at hopen
          cases hopen
        · refine ⟨List.mem_cons_of_mem _ hrest, fun heq => hnodup.1 ?_⟩
          rw [← heq]
          exact List.mem_map_of_mem hrest
      · rw [List.countP_cons_of_neg (by rw [hready]; exact Bool.false_ne_true),
          List.countP_cons_of_pos hhead]
        exact Nat.lt_succ_self _
      · rw [List.map_cons, hoid, List.map_cons]
    | false =>
      rw [List.find?_cons, hhead] at hfind
      have hout := ih hnodup.2 hfind
      have hmem : message ∈ rest := List.mem_of_find?_eq_some hfind
      rw [rewriteFirst_cons, if_neg (by rw [hhead]; exact Bool.false_ne_true)]
      constructor
      · intro other hother hne
        rcases List.mem_cons.mp hother with rfl | hrest
        · exact List.mem_cons_self
        · exact List.mem_cons_of_mem _ (hout.others other hrest hne)
      · intro other hother hopen
        rcases List.mem_cons.mp hother with rfl | hrest
        · rw [hhead] at hopen
          cases hopen
        · obtain ⟨hold, hne⟩ := hout.ready other hrest hopen
          exact ⟨List.mem_cons_of_mem _ hold, hne⟩
      · have hskip : ¬head.isReady queueArn = true := by
          rw [hhead]
          exact Bool.false_ne_true
        rw [List.countP_cons_of_neg hskip, List.countP_cons_of_neg hskip]
        exact hout.fewer
      · rw [List.map_cons, List.map_cons, hout.oids]

theorem rewriteFirst_oid {first second : Message → Message}
    (hnodup : (messages.map Message.oid).Nodup)
    (hfind : messages.find? (Message.isReady queueArn) = some message)
    (hoid : (first message).oid = message.oid) :
    rewriteFirst (fun other => decide (other.oid = message.oid)) second
        (rewriteFirst (Message.isReady queueArn) first messages) =
      rewriteFirst (Message.isReady queueArn) (fun other => second (first other)) messages := by
  induction messages with
  | nil => cases hfind
  | cons head rest ih =>
    rw [List.map_cons, List.nodup_cons] at hnodup
    cases hhead : head.isReady queueArn with
    | true =>
      rw [List.find?_cons, hhead] at hfind
      injection hfind with hfind
      subst hfind
      rw [rewriteFirst_cons, if_pos hhead, rewriteFirst_cons, if_pos (decide_eq_true hoid),
        rewriteFirst_cons, if_pos hhead]
    | false =>
      rw [List.find?_cons, hhead] at hfind
      have hne : head.oid ≠ message.oid := fun heq =>
        hnodup.1 (heq ▸ List.mem_map_of_mem (List.mem_of_find?_eq_some hfind))
      have hskip : ¬head.isReady queueArn = true := by
        rw [hhead]
        exact Bool.false_ne_true
      rw [rewriteFirst_cons, if_neg hskip, rewriteFirst_cons,
        if_neg (by rw [decide_eq_true_eq]; exact hne), rewriteFirst_cons, if_neg hskip,
        ih hnodup.2 hfind]

end TakesOut

section Loop

variable {random : RandomSource} {queueArn : String} {reset : Time} {maxResult : Int}
variable {dlQueueArn : String} {maxRetries : Int} {held : List Mutex} {fuel : Nat}
variable {messageList messages : List Message} {world : World MongoStore}

def claimedMessage (reset : Time) (receiptHandle : String) (message : Message) : Message :=
  { message with retries := message.retries + 1, reset, status := .invisible, receiptHandle }

def deadLettered (dlQueueArn : String) (message : Message) : Message :=
  { message with queueArn := dlQueueArn, receiptHandle := "", status := .initial }

theorem exists_round {message : Message} (hroom : maxResult ≤ 0 ∨ messageList.length < maxResult)
    (hdead : dlQueueArn ≠ "" → dlQueueArn ≠ queueArn)
    (hstored : List.Forall₂ Message.StoredAs messages world.store.messages)
    (hnodup : (messages.map Message.oid).Nodup)
    (hfind : messages.find? (Message.isReady queueArn) = some message) :
    ∃ returned after later,
      (receiveLoop random queueArn reset maxResult dlQueueArn maxRetries (fuel + 1)
          messageList).run held world =
        (receiveLoop random queueArn reset maxResult dlQueueArn maxRetries fuel
          (messageList ++ returned)).run held after ∧
      List.Forall₂ Message.StoredAs later after.store.messages ∧
      TakesOut queueArn message messages later ∧
      (message.isSpent dlQueueArn maxRetries = true → returned = []) ∧
      (message.isSpent dlQueueArn maxRetries = false →
        ∃ copy, returned = [copy] ∧ copy.oid = message.oid) := by
  let handle := random.receiptHandle world.draws
  obtain ⟨document, hdocument, hstands⟩ : ∃ document,
      Collection.findOne (claimFilter queueArn) world.store.messages = some document ∧
        message.StoredAs document := by
    have hfound := forall₂_find? hstored fun other document hother =>
      (hother.accepts_claimFilter queueArn).symm
    rw [show messages.find? (fun other => other.isIn queueArn && other.hasStatus .initial) =
      some message from hfind] at hfound
    revert hfound
    rw [Collection.findOne]
    cases world.store.messages.find? _ with
    | none =>
      intro hfound
      cases hfound
    | some document =>
      intro hfound
      cases hfound with
      | some hstands => exact ⟨document, rfl, hstands⟩
  have hclaimed : List.Forall₂ Message.StoredAs
      (rewriteFirst (Message.isReady queueArn) (claimedMessage reset handle) messages)
      (Collection.updateOne (claimFilter queueArn) (claimUpdate reset handle)
        world.store.messages) :=
    forall₂_rewriteFirst hstored
      (fun other document hother => (hother.accepts_claimFilter queueArn).symm)
      fun other document hother _ => hother.claim reset handle
  have hread : Message.fromDocument
      ((claimUpdate reset (random.receiptHandle world.draws)).apply document) =
        .ok (Message.reread (claimedMessage reset handle message)) :=
    (hstands.claim reset handle).fromDocument_eq
  have hspent : isDead dlQueueArn maxRetries
      (Message.reread (claimedMessage reset handle message)).retries =
        message.isSpent dlQueueArn maxRetries := rfl
  have hround : (receiveLoop random queueArn reset maxResult dlQueueArn maxRetries (fuel + 1)
      messageList).run held world =
      if message.isSpent dlQueueArn maxRetries then
        (receiveLoop random queueArn reset maxResult dlQueueArn maxRetries fuel messageList).run held
          ⟨{ world.store with
              messages := Collection.updateOne [idIs message.oid] (deadLetterUpdate dlQueueArn)
                (Collection.updateOne (claimFilter queueArn) (claimUpdate reset handle)
                  world.store.messages) }, world.draws + 1⟩
      else (receiveLoop random queueArn reset maxResult dlQueueArn maxRetries fuel
          (messageList ++ [Message.reread (claimedMessage reset handle message)])).run held
          ⟨{ world.store with
              messages := Collection.updateOne (claimFilter queueArn) (claimUpdate reset handle)
                world.store.messages }, world.draws + 1⟩ := by
    conv_lhs => rw [receiveLoop, if_pos hroom]
    simp only [Action.run_bind, Call.run_draw, Outcome.andThen_returns, readMessages,
      writeMessages, Call.run_readStore, Call.run_writeStore, Collection.findOneAndUpdate,
      hdocument, Option.map_some]
    rw [hread, Call.run_ofExcept_ok, Outcome.andThen_returns, hspent]
    cases message.isSpent dlQueueArn maxRetries with
    | true => rfl
    | false => rfl
  have hclosed : ∀ other : Message,
      (claimedMessage reset handle other).isReady queueArn = false := by
    intro other
    simp [claimedMessage, Message.isReady, Message.hasStatus]
  cases hcase : message.isSpent dlQueueArn maxRetries with
  | false =>
    rw [hcase] at hround
    exact ⟨_, _, _, hround, hclaimed, takesOut_rewriteFirst hnodup hfind (hclosed message) rfl,
      Bool.noConfusion, fun _ => ⟨_, rfl, rfl⟩⟩
  | true =>
    rw [hcase] at hround
    -- The message moves to another queue, so it is not ready in this one.
    have htarget : dlQueueArn ≠ queueArn := by
      apply hdead
      intro hempty
      simp [Message.isSpent, isDead, hempty] at hcase
    have hmoved : (deadLettered dlQueueArn (claimedMessage reset handle message)).isReady queueArn =
        false := by
      simp [deadLettered, Message.isReady, Message.isIn, htarget]
    have hlater : List.Forall₂ Message.StoredAs
        (rewriteFirst (fun other => decide (other.oid = message.oid)) (deadLettered dlQueueArn)
          (rewriteFirst (Message.isReady queueArn) (claimedMessage reset handle) messages))
        (Collection.updateOne [idIs message.oid] (deadLetterUpdate dlQueueArn)
          (Collection.updateOne (claimFilter queueArn) (claimUpdate reset handle)
            world.store.messages)) :=
      forall₂_rewriteFirst hclaimed
        (fun other document hother => (hother.accepts_idIs message.oid).symm)
        fun other document hother _ => hother.deadLetter dlQueueArn
    rw [rewriteFirst_oid hnodup hfind rfl] at hlater
    have hout : TakesOut queueArn message messages (rewriteFirst (Message.isReady queueArn)
          (fun other => deadLettered dlQueueArn (claimedMessage reset handle other)) messages) :=
      takesOut_rewriteFirst hnodup hfind hmoved rfl
    refine ⟨[], ⟨{ world.store with
        messages := Collection.updateOne [idIs message.oid] (deadLetterUpdate dlQueueArn)
          (Collection.updateOne (claimFilter queueArn) (claimUpdate reset handle)
            world.store.messages) }, world.draws + 1⟩, _, ?_, hlater, hout, fun _ => rfl,
        Bool.noConfusion⟩
    rw [List.append_nil]
    exact hround

theorem run_receiveLoop_quiet (hstored : List.Forall₂ Message.StoredAs messages world.store.messages)
    (hfind : messages.find? (Message.isReady queueArn) = none) :
    ∃ after, (receiveLoop random queueArn reset maxResult dlQueueArn maxRetries (fuel + 1)
        messageList).run held world = .returns messageList after := by
  have hquiet : ∀ document ∈ world.store.messages,
      Filter.accepts (claimFilter queueArn) document = false := by
    apply quiet_of_forall₂ hstored
    rw [List.filter_eq_nil_iff]
    exact List.find?_eq_none.mp hfind
  obtain ⟨drawsAfter, hrun⟩ := run_receiveLoop_none hquiet
  exact ⟨_, hrun⟩

theorem of_mem_receiveLoop {after : World MongoStore} {result : List Message}
    (hdead : dlQueueArn ≠ "" → dlQueueArn ≠ queueArn)
    (hstored : List.Forall₂ Message.StoredAs messages world.store.messages)
    (hnodup : (messages.map Message.oid).Nodup)
    (hrun : (receiveLoop random queueArn reset maxResult dlQueueArn maxRetries fuel
      messageList).run held world = .returns result after) :
    ∀ copy ∈ result, copy ∈ messageList ∨ ∃ message ∈ messages,
      message.isReady queueArn = true ∧ message.isSpent dlQueueArn maxRetries = false ∧
        copy.oid = message.oid := by
  induction fuel generalizing messageList messages world with
  | zero =>
    rw [receiveLoop] at hrun
    split at hrun
    · cases hrun
    · injection hrun with hresult
      subst hresult
      exact fun copy hcopy => Or.inl hcopy
  | succ fuel ih =>
    by_cases hroom : maxResult ≤ 0 ∨ messageList.length < maxResult
    · cases hfind : messages.find? (Message.isReady queueArn) with
      | none =>
        obtain ⟨last, hquiet⟩ := run_receiveLoop_quiet hstored hfind
        rw [hquiet] at hrun
        injection hrun with hresult
        subst hresult
        exact fun copy hcopy => Or.inl hcopy
      | some message =>
        obtain ⟨returned, middle, later, hround, hlater, hout, hspent, halive⟩ :=
          exists_round hroom hdead hstored hnodup hfind
        rw [hround] at hrun
        have hmessage : message ∈ messages := List.mem_of_find?_eq_some hfind
        have hready := List.find?_some hfind
        intro copy hcopy
        rcases ih hlater (hout.oids ▸ hnodup) hrun copy hcopy with hlist | hlate
        · rcases List.mem_append.mp hlist with hold | hnew
          · exact Or.inl hold
          · right
            cases hcase : message.isSpent dlQueueArn maxRetries with
            | true =>
              rw [hspent hcase] at hnew
              cases hnew
            | false =>
              obtain ⟨one, hone, hoid⟩ := halive hcase
              rw [hone, List.mem_singleton] at hnew
              exact ⟨message, hmessage, hready, hcase, hnew ▸ hoid⟩
        · obtain ⟨other, hother, hopen, hfresh, hoid⟩ := hlate
          exact Or.inr ⟨other, (hout.ready other hother hopen).1, hopen, hfresh, hoid⟩
    · rw [receiveLoop_full hroom] at hrun
      injection hrun with hresult
      subst hresult
      exact fun copy hcopy => Or.inl hcopy

variable (random reset maxRetries held messageList) in
theorem exists_run_receiveLoop (hlimit : maxResult ≤ 0)
    (hdead : dlQueueArn ≠ "" → dlQueueArn ≠ queueArn)
    (hstored : List.Forall₂ Message.StoredAs messages world.store.messages)
    (hnodup : (messages.map Message.oid).Nodup)
    (hfuel : messages.countP (Message.isReady queueArn) < fuel) :
    ∃ result after, (receiveLoop random queueArn reset maxResult dlQueueArn maxRetries fuel
        messageList).run held world = .returns result after ∧
      (∀ copy ∈ messageList, copy ∈ result) ∧
      ∀ message ∈ messages, message.isReady queueArn = true →
        message.isSpent dlQueueArn maxRetries = false → ∃ copy ∈ result, copy.oid = message.oid := by
  induction fuel generalizing messageList messages world with
  | zero => exact absurd hfuel (Nat.not_lt_zero _)
  | succ fuel ih =>
    cases hfind : messages.find? (Message.isReady queueArn) with
    | none =>
      obtain ⟨after, hrun⟩ := run_receiveLoop_quiet hstored hfind
      refine ⟨messageList, after, hrun, fun _ => id, fun message hmessage hready => ?_⟩
      exact absurd hready (List.find?_eq_none.mp hfind message hmessage)
    | some first =>
      obtain ⟨returned, middle, later, hround, hlater, hout, -, halive⟩ :=
        exists_round (Or.inl hlimit) hdead hstored hnodup hfind
      obtain ⟨result, after, hrun, hkept, hreturned⟩ := ih _ hlater (hout.oids ▸ hnodup)
        (Nat.lt_of_lt_of_le hout.fewer (Nat.le_of_lt_succ hfuel))
      refine ⟨result, after, hround.trans hrun,
        fun copy hcopy => hkept copy (List.mem_append_left _ hcopy),
        fun message hmessage hready hfresh => ?_⟩
      by_cases hoid : message.oid = first.oid
      · have hsame : message = first := List.inj_on_of_nodup_map hnodup hmessage
          (List.mem_of_find?_eq_some hfind) hoid
        obtain ⟨copy, hcopy, hcopied⟩ := halive (hsame ▸ hfresh)
        refine ⟨copy, hkept copy (List.mem_append_right _ ?_), hcopied.trans hoid.symm⟩
        rw [hcopy]
        exact List.mem_cons_self
      · exact hreturned message (hout.others message hmessage hoid) hready hfresh

end Loop

end AwsMock.Sqs
