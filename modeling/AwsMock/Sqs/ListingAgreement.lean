import AwsMock.Sqs.Listing

/-! # Agreement of the listings and counts

Each of the five listing and counting functions returns, in both repositories,
what it is for exactly under a condition on its arguments and the store.
-/

namespace AwsMock.Sqs

open Foundation

theorem map_eq_of_forall₂ {α β γ : Type} {f : α → γ} {g : β → γ} {xs : List α} {ys : List β}
    (hrel : List.Forall₂ (fun x y => f x = g y) xs ys) : xs.map f = ys.map g := by
  induction hrel with
  | nil => rfl
  | cons hhead _ ih => rw [List.map_cons, List.map_cons, hhead, ih]

section Filters

variable {α : Type} {weak strong : α → Bool} {xs : List α}

section

variable (himp : ∀ x ∈ xs, strong x = true → weak x = true)
include himp

theorem filter_filter_of_imp :
    (xs.filter weak).filter strong = xs.filter strong := by
  rw [List.filter_filter]
  refine List.filter_congr fun x hx => ?_
  cases hstrong : strong x with
  | true => rw [himp x hx hstrong]; rfl
  | false => rfl

theorem filter_sublist_of_imp :
    (xs.filter strong).Sublist (xs.filter weak) :=
  filter_filter_of_imp himp ▸ List.filter_sublist

theorem length_filter_eq_iff :
    (xs.filter strong).length = (xs.filter weak).length ↔
      ∀ x ∈ xs, weak x = true → strong x = true := by
  rw [← filter_filter_of_imp himp, List.length_filter_eq_length_iff]
  simp only [List.mem_filter, and_imp]

theorem filter_eq_of_imp (hconverse : ∀ x ∈ xs, weak x = true → strong x = true) :
    xs.filter weak = xs.filter strong :=
  List.filter_congr fun x hx => Bool.eq_iff_iff.mpr ⟨hconverse x hx, himp x hx⟩

end

theorem filter_unless_twice (condition : Prop) [Decidable condition]
    (select : α → Bool) (xs : List α) :
    (if condition then (if condition then xs else xs.filter select)
      else (if condition then xs else xs.filter select).filter select) =
      xs.filter fun x => decide condition || select x := by
  by_cases hcondition : condition <;> simp [hcondition]

end Filters

section Queues

variable {memory : MemoryStore} {mongo : MongoStore} {region queuePrefix : String} {draws : Nat}

theorem run_listQueueUrls_memory :
    (MemoryRepository.listQueueUrls region queuePrefix).run [] ⟨memory, draws⟩ =
      .returns ((memory.queues.values.filter (Queue.inRegion region)).map Queue.url)
        ⟨memory, draws⟩ := by
  simp only [MemoryRepository.listQueueUrls, MemoryRepository.readQueues, Action.run_bind,
    Call.run_readStore, Outcome.andThen_returns, Action.run_pure, filter_unless_twice]
  rfl

theorem run_listQueueUrls_mongo (hsame : SameEntities memory mongo) :
    (MongoRepository.listQueueUrls region queuePrefix).run [] ⟨mongo, draws⟩ =
      .returns ((memory.queues.values.filter (Queue.isListed region queuePrefix)).map Queue.url)
        ⟨mongo, draws⟩ := by
  have hfilter : List.Forall₂ Queue.StoredAs
      (memory.queues.values.filter (Queue.isListed region queuePrefix))
      (mongo.queues.find (MongoRepository.unlessEmpty region (fieldIs "region" region) ++
        MongoRepository.unlessEmpty queuePrefix
          (MongoRepository.startsWithClause "name" queuePrefix))) := by
    apply forall₂_filter hsame.queues
    intro queue document hstands
    rw [accepts_append, hstands.accepts_name, hstands.accepts_region, Bool.and_comm]
    rfl
  rw [map_eq_of_forall₂ (hfilter.imp fun queue document hstands =>
    hstands.url.getStringValue_eq.symm)]
  rfl

def UrlsListable (region queuePrefix : String) (memory : MemoryStore) : Prop :=
  ∀ queue ∈ memory.queues.values, queue.inRegion region = true → queue.hasPrefix queuePrefix = true

theorem listQueueUrls_iff (hsame : SameEntities memory mongo) :
    BothReturn (MemoryRepository.listQueueUrls region queuePrefix)
        (MongoRepository.listQueueUrls region queuePrefix) memory mongo draws
        ((memory.queues.values.filter (Queue.isListed region queuePrefix)).map Queue.url) ↔
      UrlsListable region queuePrefix memory := by
  have himp : ∀ queue ∈ memory.queues.values,
      queue.isListed region queuePrefix = true → queue.inRegion region = true := by
    intro queue _ hlisted
    rw [Queue.isListed, Bool.and_eq_true] at hlisted
    exact hlisted.2
  rw [BothReturn, run_listQueueUrls_memory, run_listQueueUrls_mongo hsame]
  constructor
  · rintro ⟨hmemory, -⟩ queue hqueue hregion
    injection hmemory with hurls _
    have hlength := congrArg List.length hurls
    rw [List.length_map, List.length_map] at hlength
    have hlisted := (length_filter_eq_iff himp).mp hlength.symm queue hqueue hregion
    rw [Queue.isListed, Bool.and_eq_true] at hlisted
    exact hlisted.1
  · intro hlistable
    have hfilter : memory.queues.values.filter (Queue.inRegion region) =
        memory.queues.values.filter (Queue.isListed region queuePrefix) := by
      refine List.filter_congr fun queue hqueue => ?_
      cases hregion : queue.inRegion region with
      | true => rw [Queue.isListed, hregion, hlistable queue hqueue hregion]; rfl
      | false => rw [Queue.isListed, hregion, Bool.and_false]
    exact ⟨by rw [hfilter], rfl⟩

theorem startsWith_nil (text : String) : StringUtils.startsWith text "" = true := rfl

theorem Queue.hasPrefix_eq (queue : Queue) :
    queue.hasPrefix queuePrefix = StringUtils.startsWith queue.name queuePrefix := by
  rw [hasPrefix]
  by_cases hstarts : queuePrefix = ""
  · simp [hstarts, startsWith_nil]
  · simp [hstarts]

def Queue.isCounted (region queuePrefix : String) (queue : Queue) : Bool :=
  decide (region = "") || queue.hasPrefix queuePrefix

theorem run_countQueues_memory :
    (MemoryRepository.countQueues region queuePrefix).run [] ⟨memory, draws⟩ =
      .returns ((memory.queues.values.filter (Queue.isCounted region queuePrefix)).length : Int)
        ⟨memory, draws⟩ := by
  have hcounted : Queue.isCounted region queuePrefix = fun queue : Queue =>
      decide (region = "") || StringUtils.startsWith queue.name queuePrefix := by
    funext queue
    rw [Queue.isCounted, queue.hasPrefix_eq]
  simp only [MemoryRepository.countQueues, MemoryRepository.readQueues, Action.run_bind,
    Call.run_readStore, Outcome.andThen_returns, Action.run_pure, filter_unless_twice, hcounted]

theorem run_countQueues_mongo (hsame : SameEntities memory mongo) :
    (MongoRepository.countQueues region queuePrefix).run [] ⟨mongo, draws⟩ =
      .returns ((memory.queues.values.filter (Queue.isListed region queuePrefix)).length : Int)
        ⟨mongo, draws⟩ := by
  rw [← List.countP_eq_length_filter, forall₂_countP hsame.queues fun queue document hstands =>
    (accepts_listed hstands region queuePrefix).symm]
  rfl

def QueuesCountable (region queuePrefix : String) (memory : MemoryStore) : Prop :=
  ∀ queue ∈ memory.queues.values,
    queue.isCounted region queuePrefix = true → queue.isListed region queuePrefix = true

theorem countQueues_iff (hsame : SameEntities memory mongo) :
    BothReturn (MemoryRepository.countQueues region queuePrefix)
        (MongoRepository.countQueues region queuePrefix) memory mongo draws
        ((memory.queues.values.filter (Queue.isListed region queuePrefix)).length : Int) ↔
      QueuesCountable region queuePrefix memory := by
  have himp : ∀ queue ∈ memory.queues.values,
      queue.isListed region queuePrefix = true → queue.isCounted region queuePrefix = true := by
    intro queue _ hlisted
    rw [Queue.isListed, Bool.and_eq_true] at hlisted
    rw [Queue.isCounted, hlisted.1, Bool.or_true]
  rw [BothReturn, run_countQueues_memory, run_countQueues_mongo hsame]
  constructor
  · rintro ⟨hmemory, -⟩
    injection hmemory with hcount _
    exact (length_filter_eq_iff himp).mp (Int.ofNat_inj.mp hcount).symm
  · intro hcountable
    rw [(length_filter_eq_iff himp).mpr hcountable]
    exact ⟨rfl, rfl⟩

end Queues

section Messages

variable {memory : MemoryStore} {mongo : MongoStore} {queueArn messagePrefix : String}
variable {order : Option Value → Option Value → Bool} {pageSize pageIndex : Int}
variable {sortColumns : List SortColumn} {draws : Nat}

def Message.isFiledUnder (queueArn : String) (message : Message) : Bool :=
  decide (queueArn = "") || message.isIn queueArn

def Message.isListed (queueArn messagePrefix : String) (message : Message) : Bool :=
  (decide (messagePrefix = "") || StringUtils.startsWith message.messageId messagePrefix) &&
    message.isFiledUnder queueArn

def Message.mentions (queueArn : String) (message : Message) : Bool :=
  decide (queueArn = "") || StringUtils.contains message.queueArn queueArn

theorem contains_self (text : String) : StringUtils.contains text text = true :=
  decide_eq_true (List.infix_refl _)

theorem Message.mentions_of_isListed {message : Message}
    (hlisted : message.isListed queueArn messagePrefix = true) :
    message.mentions queueArn = true := by
  rw [isListed, Bool.and_eq_true] at hlisted
  have hfiled := hlisted.2
  rw [isFiledUnder, Bool.or_eq_true, decide_eq_true_eq] at hfiled
  rw [mentions, Bool.or_eq_true, decide_eq_true_eq]
  refine hfiled.imp_right fun hqueue => ?_
  rw [isIn, decide_eq_true_eq] at hqueue
  rw [hqueue]
  exact contains_self queueArn

theorem run_listMessages_memory :
    (MemoryRepository.listMessages queueArn messagePrefix pageSize pageIndex sortColumns).run []
        ⟨memory, draws⟩ =
      .returns (memory.messages.values.filter (Message.mentions queueArn)) ⟨memory, draws⟩ := by
  simp only [MemoryRepository.listMessages, MemoryRepository.readMessages, Action.run_bind,
    Call.run_readStore, Outcome.andThen_returns, Action.run_pure, filter_unless]
  rfl

variable (queueArn messagePrefix) in
theorem accepts_listedMessage {message : Message} {document : Document}
    (hstored : message.StoredAs document) :
    Filter.accepts (MongoRepository.unlessEmpty messagePrefix
            (MongoRepository.startsWithClause "messageId" messagePrefix) ++
          MongoRepository.unlessEmpty queueArn (fieldIs "queueArn" queueArn)) document =
      message.isListed queueArn messagePrefix := by
  rw [accepts_append, hstored.accepts_messagePrefix, hstored.accepts_queueArn_unlessEmpty]
  rfl

def messageSkip (pageSize pageIndex : Int) : Int :=
  if pageSize > 0 ∧ pageIndex > 0 then pageSize * pageIndex else 0

variable (pageSize pageIndex) in
theorem messageSkip_nonneg : 0 ≤ messageSkip pageSize pageIndex := by
  rw [messageSkip]
  split
  next hpositive => exact Int.mul_nonneg (by omega) (by omega)
  next => exact Int.le_refl 0

theorem run_listMessages_mongo (hsame : SameEntities memory mongo)
    (hdirections : DirectionsValid sortColumns) :
    (MongoRepository.listMessages order queueArn messagePrefix pageSize pageIndex sortColumns).run
        [] ⟨mongo, draws⟩ =
      .returns (window (limitOf pageSize) (messageSkip pageSize pageIndex)
          (listed order sortColumns (Message.isListed queueArn messagePrefix)
            memory.messages.values mongo.messages)) ⟨mongo, draws⟩ := by
  have hfind := findPage_rows order sortColumns (limitOf pageSize)
    (hsame.messages.imp fun message document hstands =>
      accepts_listedMessage queueArn messagePrefix hstands)
    ⟨messageSkip_nonneg pageSize pageIndex, hdirections⟩
  have hread := mapM_read_listed order sortColumns (Message.isListed queueArn messagePrefix)
    hsame.read_messages (limitOf pageSize) (messageSkip pageSize pageIndex)
  simp only [limitOf, messageSkip] at hfind hread ⊢
  simp [MongoRepository.listMessages, MongoRepository.readMessages, MongoRepository.findPage,
    MongoRepository.readMessageList, hfind, hread]

theorem run_listMessages_invalid (hinvalid : ¬DirectionsValid sortColumns) :
    (MongoRepository.listMessages order queueArn messagePrefix pageSize pageIndex sortColumns).run
        [] ⟨mongo, draws⟩ = .halts (.exception (.standard "BadValue")) ⟨mongo, draws⟩ := by
  have hfind : ∀ filter, Collection.findPage order filter
      ⟨limitOf pageSize, messageSkip pageSize pageIndex, MongoRepository.sortKeys sortColumns⟩
      mongo.messages = none := fun filter => findPage_invalid fun hvalid => hinvalid hvalid.2
  simp only [limitOf, messageSkip] at hfind
  simp [MongoRepository.listMessages, MongoRepository.readMessages, MongoRepository.findPage, hfind]

def MessagesListable (order : Option Value → Option Value → Bool)
    (queueArn messagePrefix : String) (pageSize pageIndex : Int)
    (sortColumns : List SortColumn) (memory : MemoryStore) (mongo : MongoStore) : Prop :=
  (∀ message ∈ memory.messages.values,
      message.mentions queueArn = true → message.isListed queueArn messagePrefix = true) ∧
    listed order sortColumns (Message.isListed queueArn messagePrefix) memory.messages.values
        mongo.messages =
      memory.messages.values.filter (Message.isListed queueArn messagePrefix) ∧
    PageIsWhole pageSize pageIndex
      (memory.messages.values.filter (Message.isListed queueArn messagePrefix)).length ∧
    DirectionsValid sortColumns

theorem listMessages_iff (hsame : SameEntities memory mongo) :
    BothReturn (MemoryRepository.listMessages queueArn messagePrefix pageSize pageIndex sortColumns)
        (MongoRepository.listMessages order queueArn messagePrefix pageSize pageIndex sortColumns)
        memory mongo draws
        (page pageSize pageIndex (listed order sortColumns
          (Message.isListed queueArn messagePrefix) memory.messages.values mongo.messages)) ↔
      MessagesListable order queueArn messagePrefix pageSize pageIndex sortColumns memory
        mongo := by
  have hlength := length_listed order sortColumns (Message.isListed queueArn messagePrefix)
    hsame.messages.length_eq
  have himp : ∀ message ∈ memory.messages.values,
      message.isListed queueArn messagePrefix = true → message.mentions queueArn = true :=
    fun message _ => Message.mentions_of_isListed
  rw [BothReturn, run_listMessages_memory]
  constructor
  · rintro ⟨hmemory, hmongo⟩
    injection hmemory with hpage _
    -- A page is no longer than the listed messages, and these are among the mentioned ones.
    have hshort := length_page_le pageSize pageIndex (listed order sortColumns
      (Message.isListed queueArn messagePrefix) memory.messages.values mongo.messages)
    rw [← hpage, hlength] at hshort
    have hlong := (filter_sublist_of_imp himp).length_le
    have hlistable := (length_filter_eq_iff himp).mp (Nat.le_antisymm hlong hshort)
    rw [filter_eq_of_imp himp hlistable] at hpage
    obtain ⟨hsorted, hwhole⟩ := (page_eq_iff hlength).mp hpage.symm
    refine ⟨hlistable, hsorted, hwhole, ?_⟩
    by_contra hinvalid
    rw [run_listMessages_invalid hinvalid] at hmongo
    cases hmongo
  · rintro ⟨hlistable, hsorted, hwhole, hdirections⟩
    have hpage := (page_eq_iff hlength).mpr ⟨hsorted, hwhole⟩
    refine ⟨by rw [hpage, filter_eq_of_imp himp hlistable], ?_⟩
    rw [run_listMessages_mongo hsame hdirections, window_eq_page]
    · intro hsize hindex
      rw [messageSkip]
      split
      next => rfl
      next hpositive =>
        have hzero : pageIndex = 0 := by omega
        rw [hzero, Int.mul_zero]
    · intro hsize
      rw [messageSkip, if_neg (by omega)]
    · rw [PageIsWhole] at hwhole
      rcases hwhole with hsize | hempty | ⟨hindex, -⟩
      · exact Or.inl hsize
      · exact Or.inr (Or.inr (List.eq_nil_of_length_eq_zero (hlength.trans hempty)))
      · exact Or.inr (Or.inl (by omega))

theorem run_countMessages_memory :
    (MemoryRepository.countMessages queueArn messagePrefix).run [] ⟨memory, draws⟩ =
      .returns ((memory.messages.values.filter (Message.isFiledUnder queueArn)).length : Int)
        ⟨memory, draws⟩ := by
  have hcount : (if queueArn = "" then (memory.messages.size : Int)
      else memory.messages.countIf (Message.isIn queueArn)) =
      ((memory.messages.values.filter (Message.isFiledUnder queueArn)).length : Int) := by
    split
    next hempty =>
      rw [List.filter_eq_self.mpr fun message _ => by simp [Message.isFiledUnder, hempty],
        UnorderedMap.values, List.length_map, UnorderedMap.size]
    next hqueue =>
      have hfiled : Message.isFiledUnder queueArn = Message.isIn queueArn := by
        funext message
        simp [Message.isFiledUnder, hqueue]
      rw [UnorderedMap.countIf_eq_countP, List.countP_eq_length_filter, hfiled]
  rw [← hcount]
  rfl

theorem run_countMessages_mongo (hsame : SameEntities memory mongo) :
    (MongoRepository.countMessages queueArn messagePrefix).run [] ⟨mongo, draws⟩ =
      .returns (if messagePrefix = "" then
        ((memory.messages.values.filter (Message.isFiledUnder queueArn)).length : Int) else 0)
        ⟨mongo, draws⟩ := by
  have hcount : mongo.messages.countP (Filter.accepts
      (MongoRepository.unlessEmpty queueArn (fieldIs "queueArn" queueArn) ++
        MongoRepository.unlessEmpty messagePrefix
          (MongoRepository.startsWithClause "key" messagePrefix))) =
      if messagePrefix = "" then
        (memory.messages.values.filter (Message.isFiledUnder queueArn)).length else 0 := by
    split
    next hempty =>
      rw [← List.countP_eq_length_filter]
      refine (forall₂_countP hsame.messages fun message document hstands => ?_).symm
      rw [accepts_append, hstands.accepts_queueArn_unlessEmpty, hempty, accepts_unlessEmpty]
      simp [Message.isFiledUnder]
    next hstarts =>
      refine List.countP_eq_zero.mpr fun document hdocument => ?_
      rw [accepts_append, accepts_unlessEmpty messagePrefix]
      simp [MongoRepository.startsWithClause, Condition.holds, hstarts,
        hsame.keyless document hdocument]
  have hcast := congrArg (Nat.cast (R := Int)) hcount
  rw [apply_ite Nat.cast] at hcast
  exact congrArg (Outcome.returns · _) hcast

def MessagesCountable (queueArn messagePrefix : String) (memory : MemoryStore) : Prop :=
  messagePrefix = "" ∨ ∀ message ∈ memory.messages.values, message.isFiledUnder queueArn = false

theorem countMessages_iff (hsame : SameEntities memory mongo) :
    BothReturn (MemoryRepository.countMessages queueArn messagePrefix)
        (MongoRepository.countMessages queueArn messagePrefix) memory mongo draws
        ((memory.messages.values.filter (Message.isListed queueArn messagePrefix)).length : Int) ↔
      MessagesCountable queueArn messagePrefix memory := by
  have hall (hempty : messagePrefix = "") :
      Message.isListed queueArn messagePrefix = Message.isFiledUnder queueArn := by
    funext message
    simp [Message.isListed, hempty]
  rw [BothReturn, run_countMessages_memory, run_countMessages_mongo hsame, MessagesCountable]
  constructor
  · rintro ⟨hmemory, hmongo⟩
    injection hmemory with hcount _
    injection hmongo with hcount' _
    by_cases hempty : messagePrefix = ""
    · exact Or.inl hempty
    · rw [if_neg hempty, ← hcount] at hcount'
      have hnone := List.eq_nil_of_length_eq_zero (Int.ofNat_eq_zero.mp hcount'.symm)
      rw [List.filter_eq_nil_iff] at hnone
      exact Or.inr fun message hmessage => Bool.eq_false_iff.mpr (hnone message hmessage)
  · rintro (hempty | hnone)
    · rw [if_pos hempty, hall hempty]
      exact ⟨rfl, rfl⟩
    · have hfiled : memory.messages.values.filter (Message.isFiledUnder queueArn) = [] :=
        List.filter_eq_nil_iff.mpr fun message hmessage => by simp [hnone message hmessage]
      have hlisted : memory.messages.values.filter (Message.isListed queueArn messagePrefix) = [] :=
        List.filter_eq_nil_iff.mpr fun message hmessage => by
          simp [Message.isListed, hnone message hmessage]
      rw [hfiled, hlisted]
      refine ⟨rfl, ?_⟩
      split <;> rfl

end Messages

section Listings

structure ListingQuery where
  region : String := ""
  namePrefix : String := ""
  queueArn : String := ""
  pageSize : Int := 0
  pageIndex : Int := 0
  sortColumns : List SortColumn := []

variable (order : Option Value → Option Value → Bool) (query : ListingQuery)

/-- What listings and counts are for: both repositories return the page of the
sorted list of the selected queues, their URLs and their number, and the same of
the messages filed under the ARN. -/
structure ListAlike (draws : Nat) (memory : MemoryStore) (mongo : MongoStore) : Prop where
  listQueues : BothReturn
    (MemoryRepository.listQueuesPage query.namePrefix query.pageSize query.pageIndex
      query.sortColumns query.region)
    (MongoRepository.listQueuesPage order query.namePrefix query.pageSize query.pageIndex
      query.sortColumns query.region)
    memory mongo draws
    (page query.pageSize query.pageIndex (listed order query.sortColumns
      (Queue.isListed query.region query.namePrefix) memory.queues.values mongo.queues))
  listQueueUrls : BothReturn (MemoryRepository.listQueueUrls query.region query.namePrefix)
    (MongoRepository.listQueueUrls query.region query.namePrefix) memory mongo draws
    ((memory.queues.values.filter (Queue.isListed query.region query.namePrefix)).map Queue.url)
  countQueues : BothReturn (MemoryRepository.countQueues query.region query.namePrefix)
    (MongoRepository.countQueues query.region query.namePrefix) memory mongo draws
    ((memory.queues.values.filter (Queue.isListed query.region query.namePrefix)).length : Int)
  listMessages : BothReturn
    (MemoryRepository.listMessages query.queueArn query.namePrefix query.pageSize query.pageIndex
      query.sortColumns)
    (MongoRepository.listMessages order query.queueArn query.namePrefix query.pageSize
      query.pageIndex query.sortColumns)
    memory mongo draws
    (page query.pageSize query.pageIndex (listed order query.sortColumns
      (Message.isListed query.queueArn query.namePrefix) memory.messages.values mongo.messages))
  countMessages : BothReturn (MemoryRepository.countMessages query.queueArn query.namePrefix)
    (MongoRepository.countMessages query.queueArn query.namePrefix) memory mongo draws
    ((memory.messages.values.filter
      (Message.isListed query.queueArn query.namePrefix)).length : Int)

structure Listable (memory : MemoryStore) (mongo : MongoStore) : Prop where
  listQueues : QueuesListable order query.namePrefix query.pageSize query.pageIndex
    query.sortColumns query.region memory mongo
  listQueueUrls : UrlsListable query.region query.namePrefix memory
  countQueues : QueuesCountable query.region query.namePrefix memory
  listMessages : MessagesListable order query.queueArn query.namePrefix query.pageSize
    query.pageIndex query.sortColumns memory mongo
  countMessages : MessagesCountable query.queueArn query.namePrefix memory

variable {memory : MemoryStore} {mongo : MongoStore} {draws : Nat}

theorem sameEntities_singleQueue {queue : Queue} (hreread : queue.reread = queue) :
    SameEntities (.singleQueue queue) (.singleQueue queue) where
  queues := List.Forall₂.cons (Queue.storedAs_toDocument queue queue.oid) List.Forall₂.nil
  queuesReadable := by
    intro other hother
    rw [List.mem_singleton.mp hother, hreread]
  messages := List.Forall₂.nil
  messagesReadable := fun _ hmessage => (List.not_mem_nil hmessage).elim
  keyless := fun _ hdocument => (List.not_mem_nil hdocument).elim

theorem sameEntities_orderQueue : SameEntities (.singleQueue orderQueue) (.singleQueue orderQueue) :=
  sameEntities_singleQueue rfl

end Listings

end AwsMock.Sqs
