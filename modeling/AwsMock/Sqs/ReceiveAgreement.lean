import AwsMock.Sqs.Receive

/-! # The claiming loop and the agreement of the two receives

The loop of the MongoDB repository, round by round, and the condition under
which it leaves the same store and returns the same list as the walk of the
in-memory repository.
-/

namespace AwsMock.Sqs

open Foundation

theorem drawsAfter_of_alive {dlQueueArn : String} {maxRetries : Int} {draws : Nat}
    {message : Message}
    (halive : isDead dlQueueArn maxRetries (message.retries + 1) = false) :
    drawsAfter dlQueueArn maxRetries draws message = draws + 1 := by
  rw [drawsAfter, if_neg (by rw [halive]; exact Bool.false_ne_true)]

theorem quiet_of_forall₂ {messages : List Message} {documents : Collection} {queueArn : String}
    (hstored : List.Forall₂ Message.StoredAs messages documents)
    (hquiet : messages.filter (Message.isReady queueArn) = []) :
    ∀ document ∈ documents,
      Filter.accepts (MongoRepository.claimFilter queueArn) document = false := by
  intro document hdocument
  obtain ⟨message, hmessage, hstands⟩ := exists_of_forall₂_right hstored hdocument
  have hready := List.filter_eq_nil_iff.mp hquiet message hmessage
  rw [hstands.accepts_claimFilter]
  exact Bool.eq_false_iff.mpr hready

section Loop

open MongoRepository

variable {random : RandomSource} {queueArn : String} {reset : Time} {maxResult : Int}
variable {dlQueueArn : String} {maxRetries : Int} {held : List Mutex} {fuel draws : Nat}
variable {messageList : List Message} {queues : Collection}

theorem receiveLoop_full (hfull : ¬(maxResult ≤ 0 ∨ messageList.length < maxResult)) :
    receiveLoop random queueArn reset maxResult dlQueueArn maxRetries fuel messageList =
      pure messageList := by
  cases fuel with
  | zero => rw [receiveLoop, if_neg hfull]
  | succ fuel => rw [receiveLoop, if_neg hfull]

theorem run_receiveLoop_none {documents : Collection}
    (hfilter : ∀ document ∈ documents, Filter.accepts (claimFilter queueArn) document = false) :
    ∃ drawsAfter, (receiveLoop random queueArn reset maxResult dlQueueArn maxRetries (fuel + 1)
          messageList).run held ⟨⟨queues, documents⟩, draws⟩ =
        .returns messageList ⟨⟨queues, documents⟩, drawsAfter⟩ := by
  by_cases hroom : maxResult ≤ 0 ∨ messageList.length < maxResult
  · have hfind : Collection.findOne (claimFilter queueArn) documents = none :=
      List.find?_eq_none.mpr fun document hdocument => by simp [hfilter document hdocument]
    have hupdate : ∀ update, Collection.updateOne (claimFilter queueArn) update documents =
        documents := fun update => rewriteFirst_of_none hfilter
    refine ⟨draws + 1, ?_⟩
    rw [receiveLoop, if_pos hroom]
    simp [readMessages, writeMessages, Collection.findOneAndUpdate, hfind, hupdate]
  · exact ⟨draws, by rw [receiveLoop_full hroom]; rfl⟩

theorem run_receiveLoop_full {documents : Collection}
    (hlimit : MemoryRepository.reachesLimit maxResult messageList.length = true)
    (hzero : maxResult = 0 →
      ∀ document ∈ documents, Filter.accepts (claimFilter queueArn) document = false)
    (hfuel : 0 < fuel) :
    ∃ drawsAfter, (receiveLoop random queueArn reset maxResult dlQueueArn maxRetries fuel
          messageList).run held ⟨⟨queues, documents⟩, draws⟩ =
        .returns messageList ⟨⟨queues, documents⟩, drawsAfter⟩ := by
  simp only [MemoryRepository.reachesLimit, Bool.and_eq_true, decide_eq_true_eq] at hlimit
  rcases Int.lt_or_eq_of_le hlimit.1 with hpositive | hzeroLimit
  · exact ⟨draws, by rw [receiveLoop_full (by omega)]; rfl⟩
  · obtain ⟨fuel, rfl⟩ : ∃ rest, fuel = rest + 1 := ⟨fuel - 1, by omega⟩
    exact run_receiveLoop_none (hzero hzeroLimit.symm)

theorem run_receiveLoop_claim {message : Message} {document : Document}
    {before after : Collection} (hroom : maxResult ≤ 0 ∨ messageList.length < maxResult)
    (hbefore : ∀ other ∈ before, Filter.accepts (claimFilter queueArn) other = false)
    (hstored : message.StoredAs document) (hready : message.isReady queueArn = true)
    (halive : isDead dlQueueArn maxRetries (message.retries + 1) = false)
    (hfits : FitsInt32 (message.retries + 1)) :
    (receiveLoop random queueArn reset maxResult dlQueueArn maxRetries (fuel + 1)
        messageList).run held ⟨⟨queues, before ++ document :: after⟩, draws⟩ =
      (receiveLoop random queueArn reset maxResult dlQueueArn maxRetries fuel
        (messageList ++ [taken random reset dlQueueArn maxRetries draws message])).run held
        ⟨⟨queues, before ++
          (claimUpdate reset (random.receiptHandle draws)).apply document :: after⟩,
          draws + 1⟩ := by
  have haccepts : Filter.accepts (claimFilter queueArn) document = true :=
    (hstored.accepts_claimFilter queueArn).trans hready
  have hfind : Collection.findOne (claimFilter queueArn) (before ++ document :: after) =
      some document := by
    rw [Collection.findOne, List.find?_append, List.find?_eq_none.mpr (by simpa using hbefore)]
    simp [haccepts]
  have hupdate : ∀ update, Collection.updateOne (claimFilter queueArn) update
      (before ++ document :: after) = before ++ update.apply document :: after :=
    fun update => rewriteFirst_append hbefore haccepts
  have hread : Message.fromDocument
      ((claimUpdate reset (random.receiptHandle draws)).apply document) =
        .ok (taken random reset dlQueueArn maxRetries draws message) := by
    rw [(hstored.claim reset (random.receiptHandle draws)).fromDocument_eq,
      taken_of_alive halive, Message.reread_eq_iff.mpr hfits]
  conv_lhs => rw [receiveLoop, if_pos hroom]
  simp [readMessages, writeMessages, Collection.findOneAndUpdate, hfind, hupdate, hread, halive]

variable (random reset dlQueueArn maxRetries held draws messageList queues) in
theorem run_receiveLoop_walk {messages : List Message} {before documents : Collection}
    (hbefore : ∀ document ∈ before, Filter.accepts (claimFilter queueArn) document = false)
    (hstored : List.Forall₂ Message.StoredAs messages documents)
    (hroom : HasRoom maxResult messageList.length)
    (halive : ∀ message ∈ takenMessages queueArn maxResult messageList.length messages,
      isDead dlQueueArn maxRetries (message.retries + 1) = false ∧ FitsInt32 (message.retries + 1))
    (hzero : maxResult = 0 → (messages.filter (Message.isReady queueArn)).length ≤ 1)
    (hfuel : documents.length < fuel) :
    ∃ documentsAfter drawsAfter,
      (receiveLoop random queueArn reset maxResult dlQueueArn maxRetries fuel
          messageList).run held ⟨⟨queues, before ++ documents⟩, draws⟩ =
        .returns (walk random queueArn reset maxResult dlQueueArn maxRetries messages
            (draws, messageList)).2.2
          ⟨⟨queues, before ++ documentsAfter⟩, drawsAfter⟩ ∧
      List.Forall₂ Message.StoredAs
        (walk random queueArn reset maxResult dlQueueArn maxRetries messages
          (draws, messageList)).1 documentsAfter := by
  induction hstored generalizing before fuel draws messageList with
  | nil =>
    obtain ⟨fuel, rfl⟩ : ∃ rest, fuel = rest + 1 := ⟨fuel - 1, by simp at hfuel; omega⟩
    obtain ⟨drawsAfter, hrun⟩ : ∃ drawsAfter,
        (receiveLoop random queueArn reset maxResult dlQueueArn maxRetries (fuel + 1)
            messageList).run held ⟨⟨queues, before⟩, draws⟩ =
          .returns messageList ⟨⟨queues, before⟩, drawsAfter⟩ :=
      run_receiveLoop_none hbefore
    exact ⟨[], drawsAfter, by simpa [walk, UnorderedMap.visitValues] using hrun,
      List.Forall₂.nil⟩
  | @cons message document rest documents hmessage hrest ih =>
    rw [List.length_cons] at hfuel
    cases hready : message.isReady queueArn with
    | false =>
      rw [takenMessages_skip hready] at halive
      have hskip : ∀ other ∈ before ++ [document],
          Filter.accepts (claimFilter queueArn) other = false := by
        intro other hother
        rcases List.mem_append.mp hother with hother | hother
        · exact hbefore other hother
        · rw [List.mem_singleton.mp hother, hmessage.accepts_claimFilter]
          exact hready
      obtain ⟨documentsAfter, drawsAfter, hrun, hafter⟩ := ih draws messageList hskip hroom
        halive (fun heq => by simpa [hready] using hzero heq) (Nat.lt_of_succ_lt hfuel)
      rw [walk_skip hready]
      refine ⟨document :: documentsAfter, drawsAfter, ?_, List.Forall₂.cons hmessage hafter⟩
      simpa using hrun
    | true =>
      obtain ⟨fuel, rfl⟩ : ∃ rest, fuel = rest + 1 := ⟨fuel - 1, by omega⟩
      rw [takenMessages_take hready hroom] at halive
      obtain ⟨hlive, hfits⟩ := halive message List.mem_cons_self
      have hopen : maxResult ≤ 0 ∨ messageList.length < maxResult := by
        rw [HasRoom] at hroom
        omega
      have hclaimed := hmessage.claim reset (random.receiptHandle draws)
      rw [← taken_of_alive hlive] at hclaimed
      have htaken : Filter.accepts (claimFilter queueArn)
          ((claimUpdate reset (random.receiptHandle draws)).apply document) = false := by
        rw [hclaimed.accepts_claimFilter, taken_of_alive hlive]
        simp [Message.hasStatus]
      have hlength : (messageList ++
          [taken random reset dlQueueArn maxRetries draws message]).length =
            messageList.length + 1 := List.length_append
      have hlater : maxResult = 0 → rest.filter (Message.isReady queueArn) = [] := by
        intro heq
        have hnone := hzero heq
        rw [List.filter_cons, if_pos hready, List.length_cons] at hnone
        exact List.eq_nil_of_length_eq_zero (by omega)
      rw [run_receiveLoop_claim hopen hbefore hmessage hready hlive hfits]
      cases hlimit : MemoryRepository.reachesLimit maxResult (messageList.length + 1) with
      | true =>
        rw [walk_stop hready hlimit]
        obtain ⟨drawsAfter, hrun⟩ : ∃ drawsAfter,
            (receiveLoop random queueArn reset maxResult dlQueueArn maxRetries fuel (messageList ++
                  [taken random reset dlQueueArn maxRetries draws message])).run held
                ⟨⟨queues, before ++
                  (claimUpdate reset (random.receiptHandle draws)).apply document ::
                    documents⟩, draws + 1⟩ =
              .returns (messageList ++ [taken random reset dlQueueArn maxRetries draws message])
                ⟨⟨queues, before ++
                  (claimUpdate reset (random.receiptHandle draws)).apply document ::
                    documents⟩, drawsAfter⟩ := by
          apply run_receiveLoop_full
          · rw [hlength]
            exact hlimit
          · intro heq other hother
            rcases List.mem_append.mp hother with hmem | hmem
            · exact hbefore other hmem
            · rcases List.mem_cons.mp hmem with rfl | hmem
              · exact htaken
              · exact quiet_of_forall₂ hrest (hlater heq) other hmem
          · omega
        exact ⟨_, drawsAfter, hrun, List.Forall₂.cons hclaimed hrest⟩
      | false =>
        have hskip : ∀ other ∈ before ++
            [(claimUpdate reset (random.receiptHandle draws)).apply document],
            Filter.accepts (claimFilter queueArn) other = false := by
          intro other hother
          rcases List.mem_append.mp hother with hother | hother
          · exact hbefore other hother
          · rw [List.mem_singleton.mp hother, htaken]
        obtain ⟨documentsAfter, drawsAfter, hrun, hafter⟩ := ih (draws + 1) _ hskip (hlength ▸ HasRoom.succ hlimit)
          (fun other hother => halive other (List.mem_cons_of_mem _ (hlength ▸ hother)))
          (fun heq => by rw [hlater heq]; exact Nat.zero_le _)
          (Nat.lt_of_succ_lt_succ hfuel)
        rw [walk_take hready hlimit, drawsAfter_of_alive hlive]
        refine ⟨_ :: documentsAfter, drawsAfter, ?_, List.Forall₂.cons hclaimed hafter⟩
        simpa using hrun

theorem quiet_of_run_receiveLoop {world after : World MongoStore} {result : List Message}
    (hlimit : maxResult ≤ 0)
    (hrun : (receiveLoop random queueArn reset maxResult dlQueueArn maxRetries fuel
      messageList).run held world = .returns result after) :
    ∀ document ∈ after.store.messages, Filter.accepts (claimFilter queueArn) document = false := by
  induction fuel generalizing messageList world with
  | zero =>
    rw [receiveLoop, if_pos (Or.inl hlimit)] at hrun
    cases hrun
  | succ fuel ih =>
    rw [receiveLoop, if_pos (Or.inl hlimit)] at hrun
    cases hfind : Collection.findOne (claimFilter queueArn) world.store.messages with
    | none =>
      have hnone : ∀ document ∈ world.store.messages,
          Filter.accepts (claimFilter queueArn) document = false := by
        simpa [Collection.findOne] using hfind
      simp [readMessages, writeMessages, Collection.findOneAndUpdate, hfind,
        Collection.updateOne, rewriteFirst_of_none hnone] at hrun
      rw [← hrun.2]
      exact hnone
    | some document =>
      cases hread : Message.fromDocument
          ((claimUpdate reset (random.receiptHandle world.draws)).apply document) with
      | error exn =>
        simp [readMessages, writeMessages, Collection.findOneAndUpdate, hfind, hread] at hrun
      | ok message =>
        cases hdead : isDead dlQueueArn maxRetries message.retries with
        | true =>
          simp [readMessages, writeMessages, Collection.findOneAndUpdate, hfind, hread,
            hdead] at hrun
          exact ih hrun
        | false =>
          simp [readMessages, writeMessages, Collection.findOneAndUpdate, hfind, hread,
            hdead] at hrun
          exact ih hrun

end Loop

section Agreement

variable {random : RandomSource} {now : Time} {queueArn : String} {visibility maxResult : Int}
variable {dlQueueArn : String} {maxRetries : Int} {draws : Nat}
variable {memory : MemoryStore} {mongo : MongoStore}

/-- What the two receives agree on: both return, with the same messages and
equal stores. The messages returned are claimed ones of the queue that have not
used up their retries; a message whose retries this call used up is in the
dead-letter queue. -/
def ReceivesAlike (random : RandomSource) (now : Time) (queueArn : String)
    (visibility maxResult : Int) (dlQueueArn : String) (maxRetries : Int) (draws : Nat)
    (memory : MemoryStore) (mongo : MongoStore) : Prop :=
  ∃ fuel messageList memoryAfter mongoAfter,
    (MemoryRepository.receiveMessages random now queueArn visibility maxResult dlQueueArn
        maxRetries []).run [] ⟨memory, draws⟩ = .returns messageList memoryAfter ∧
    (MongoRepository.receiveMessages random fuel now queueArn visibility maxResult dlQueueArn
        maxRetries []).run [] ⟨mongo, draws⟩ = .returns messageList mongoAfter ∧
    SameMessages memoryAfter.store mongoAfter.store ∧
    (∀ message ∈ messageList,
      message.status = .invisible ∧ message.receiptHandle ≠ "" ∧ message.queueArn = queueArn ∧
        isDead dlQueueArn maxRetries message.retries = false) ∧
    List.Forall₂ (fun before after => before.retries < after.retries →
        isDead dlQueueArn maxRetries after.retries = true →
          after.queueArn = dlQueueArn ∧ after.status = .initial ∧ after.receiptHandle = "")
      memory.messages.values memoryAfter.store.messages.values

section

variable (halike : ReceivesAlike random now queueArn visibility maxResult dlQueueArn maxRetries draws memory mongo)
include halike

theorem ReceivesAlike.taken_alive :
    ∀ message ∈ takenMessages queueArn maxResult 0 memory.messages.values,
      isDead dlQueueArn maxRetries (message.retries + 1) = false ∧
        FitsInt32 (message.retries + 1) := by
  obtain ⟨fuel, messageList, memoryAfter, mongoAfter, hmemory, -, hsame, hlist, -⟩ := halike
  rw [run_receiveMessages_memory List.not_mem_nil] at hmemory
  injection hmemory with hreturned hafter
  subst hreturned hafter
  intro message htaken
  obtain ⟨draw, hstore, hdelivered⟩ := mem_walk_of_mem_taken random (now + seconds visibility)
    dlQueueArn maxRetries draws [] (hasRoom_zero maxResult) htaken
  refine ⟨?_, ?_⟩
  · have hlive := (hlist _ hdelivered).2.2.2
    rwa [taken_retries] at hlive
  · rw [← values_receivedStore] at hstore
    have hreadable := hsame.readable _ hstore
    rwa [Message.reread_eq_iff, taken_retries] at hreadable

theorem ReceivesAlike.ready_of_zero (hzero : maxResult = 0) :
    (memory.messages.values.filter (Message.isReady queueArn)).length ≤ 1 := by
  obtain ⟨fuel, messageList, memoryAfter, mongoAfter, hmemory, hmongo, hsame, -⟩ := halike
  rw [run_receiveMessages_memory List.not_mem_nil] at hmemory
  injection hmemory with hreturned hafter
  subst hreturned hafter hzero
  have hquiet := quiet_of_run_receiveLoop (Int.le_refl 0) hmongo
  have hnone : (receivedStore random now queueArn visibility 0 dlQueueArn maxRetries draws
      memory).messages.values.filter (Message.isReady queueArn) = [] := by
    rw [List.filter_eq_nil_iff]
    intro message hmessage hready
    obtain ⟨document, hdocument, hstands⟩ := exists_of_forall₂_left hsame.stored hmessage
    have haccepts := hquiet document hdocument
    rw [hstands.accepts_claimFilter] at haccepts
    exact Bool.false_ne_true (haccepts.symm.trans hready)
  have hready : (memory.messages.values.filter (Message.isReady queueArn)).length ≤
      ((walk random queueArn (now + seconds visibility) 0 dlQueueArn maxRetries
        memory.messages.values (draws, [])).1.filter (Message.isReady queueArn)).length + 1 :=
    ready_of_walk_zero memory.messages.values
  rw [← values_receivedStore, hnone] at hready
  exact hready

end

theorem receivesAlike_of_alive (hsame : SameMessages memory mongo)
    (halive : ∀ message ∈ takenMessages queueArn maxResult 0 memory.messages.values,
      isDead dlQueueArn maxRetries (message.retries + 1) = false ∧ FitsInt32 (message.retries + 1))
    (hzero : maxResult = 0 →
      (memory.messages.values.filter (Message.isReady queueArn)).length ≤ 1) :
    ReceivesAlike random now queueArn visibility maxResult dlQueueArn maxRetries draws
      memory mongo := by
  have hnothing : ∀ document ∈ ([] : Collection),
      Filter.accepts (MongoRepository.claimFilter queueArn) document = false :=
    fun _ hdocument => (List.not_mem_nil hdocument).elim
  obtain ⟨documentsAfter, drawsAfter, hrun, hstored⟩ := run_receiveLoop_walk random
    (now + seconds visibility) dlQueueArn maxRetries [] draws [] mongo.queues hnothing
    hsame.stored (hasRoom_zero maxResult) halive hzero (Nat.lt_succ_self _)
  have hwalk := forall₂_walk random queueArn (now + seconds visibility) maxResult dlQueueArn
    maxRetries memory.messages.values draws []
  refine ⟨_, _, _, _, run_receiveMessages_memory List.not_mem_nil, hrun,
    ⟨keyed_receivedStore hsame.keyed, ?_, ?_⟩, ?_, ?_⟩
  · rw [values_receivedStore]
    exact hstored
  · intro message hmessage
    rw [values_receivedStore] at hmessage
    rcases (of_mem_walk [] (hasRoom_zero maxResult)).1 hmessage with
      hold | ⟨old, htaken, draw, rfl⟩
    · exact hsame.readable message hold
    · rw [Message.reread_eq_iff, taken_retries]
      exact (halive old htaken).2
  · intro message hmessage
    rcases (of_mem_walk [] (hasRoom_zero maxResult)).2 hmessage with
      hold | ⟨old, htaken, draw, rfl⟩
    · cases hold
    · have hready := (of_mem_takenMessages htaken).2
      rw [Message.isReady, Bool.and_eq_true, Message.isIn, decide_eq_true_eq] at hready
      rw [taken_of_alive (halive old htaken).1]
      exact ⟨rfl, random.receiptHandle_ne_empty draw, hready.1, (halive old htaken).1⟩
  · rw [values_receivedStore]
    refine hwalk.imp fun before after hafter hcounted hdead => ?_
    rcases hafter with rfl | ⟨-, draw, rfl⟩
    · exact absurd hcounted (lt_irrefl _)
    · rw [taken_retries] at hdead
      rw [taken_of_dead hdead]
      exact ⟨rfl, rfl, rfl⟩

/-- From equal stores the two receives agree exactly when no message they take
has used up its retries or the range of the retry counter, and a limit of zero
meets one ready message at most. -/
theorem receivesAlike_iff (random : RandomSource) (now : Time) (queueArn : String)
    (visibility maxResult : Int) (dlQueueArn : String) (maxRetries : Int) (draws : Nat)
    (memory : MemoryStore) (mongo : MongoStore) (hsame : SameMessages memory mongo) :
    ReceivesAlike random now queueArn visibility maxResult dlQueueArn maxRetries draws
        memory mongo ↔
      (∀ message ∈ takenMessages queueArn maxResult 0 memory.messages.values,
        isDead dlQueueArn maxRetries (message.retries + 1) = false ∧
          FitsInt32 (message.retries + 1)) ∧
      (maxResult = 0 → (memory.messages.values.filter (Message.isReady queueArn)).length ≤ 1) := by
  constructor
  · intro halike
    exact ⟨halike.taken_alive, halike.ready_of_zero⟩
  · rintro ⟨halive, hzero⟩
    exact receivesAlike_of_alive hsame halive hzero

theorem receivesAlike_without_dlq :
    ReceivesAlike RandomSource.growing 2000 "arn:aws:sqs:eu-central-1:000000000000:orders" 30 10
      "" (-1) 0 (.single (orderMessage 2)) (.single (orderMessage 2)) :=
  (receivesAlike_iff RandomSource.growing 2000 "arn:aws:sqs:eu-central-1:000000000000:orders" 30
    10 "" (-1) 0 (.single (orderMessage 2)) (.single (orderMessage 2))
    (sameMessages_single (by decide) (by decide) (by decide) (by decide))).mpr
    ⟨by decide, by decide⟩

/-- A message on its last retry is handed out by the in-memory repository, from
the dead-letter queue, and not by the other. -/
theorem not_receivesAlike_dead :
    SameMessages (.single (orderMessage 2)) (.single (orderMessage 2)) ∧
      ¬ ReceivesAlike RandomSource.growing 2000 "arn:aws:sqs:eu-central-1:000000000000:orders" 30
        10 "arn:aws:sqs:eu-central-1:000000000000:orders-dlq" 3 0 (.single (orderMessage 2))
        (.single (orderMessage 2)) := by
  refine ⟨sameMessages_single (by decide) (by decide) (by decide) (by decide), ?_⟩
  intro halike
  have hmessage : orderMessage 2 ∈ takenMessages "arn:aws:sqs:eu-central-1:000000000000:orders" 10
      0 (MemoryStore.single (orderMessage 2)).messages.values := List.mem_singleton.mpr rfl
  have halive := (halike.taken_alive _ hmessage).1
  revert halive
  decide

end Agreement

end AwsMock.Sqs
