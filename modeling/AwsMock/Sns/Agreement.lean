import AwsMock.Sns.Messages

/-! # When the two stores agree

The stores answer alike as long as no message has been created, the counters of topics are not
adjusted to other values, and what is written back is a topic that both of them find.
-/

namespace AwsMock.Sns.Messages

open Foundation

section Definitions

/-- The answers of the stores are the same, up to the order of topics and the identifiers. -/
structure Agrees (repositories : Repositories) : Prop where
  running : repositories.memory.crashed = false
  messageExists : ∀ messageId,
    repositories.memory.messageExists messageId = repositories.mongo.messageExists messageId
  getMessageByMessageId : ∀ messageId message,
    repositories.mongo.getMessageByMessageId messageId = some message →
      (repositories.memory.getMessageByMessageId messageId).content = message.content
  countMessages : ∀ topicArn,
    repositories.memory.countMessages topicArn = repositories.mongo.countMessages topicArn
  listTopics : ∀ region, ((repositories.memory.listTopics region).map Topic.content).Perm
      ((repositories.mongo.listTopics region).map Topic.content)

def Topic.HasNoCounters (topic : Topic) : Prop :=
  topic.size = 0 ∧ topic.messages = 0 ∧ topic.messagesSend = 0 ∧ topic.messagesResend = 0

instance (topic : Topic) : Decidable topic.HasNoCounters := inferInstanceAs (Decidable (_ ∧ _))

/-- The topic is stored under its identifier, and no other one has its name or its ARN. -/
def Identifies (entries : List (Entry Topic)) (topic : Topic) (entry : Entry Topic) : Prop :=
  entry.1 = topic.oid ∧ entry.2.region = topic.region ∧ entry.2.topicName = topic.topicName ∧
    entry.2.topicArn = topic.topicArn ∧ ∀ other ∈ entries, other.2.region = topic.region →
        other.2.topicName = topic.topicName ∨ other.2.topicArn = topic.topicArn → other = entry

instance (entries : List (Entry Topic)) (topic : Topic) (entry : Entry Topic) :
    Decidable (Identifies entries topic entry) := inferInstanceAs (Decidable (_ ∧ _))

/-- No message is created; a topic that is written back is one of those that are stored; and
where the document store adjusts counters, there is nothing to adjust. -/
def Heeds (repositories : Repositories) : Operation → Prop
  | .createTopic _ draw => draw.memoryOid ∉ repositories.memory.topics.map Prod.fst
  | .updateTopic topic =>
    ∃ entry ∈ repositories.memory.topics, Identifies repositories.memory.topics topic entry
  | .createMessage _ _ => False
  | .setMessageStatus _ _ _ | .deleteMessage _ => True
  | .deleteOldMessages _ _ | .purgeTopic _ =>
    ∀ entry ∈ repositories.memory.topics, entry.2.HasNoCounters
  | .deleteTopic region topicArn => ∀ entry ∈ repositories.memory.topics,
      if entry.2.topicArn = topicArn then entry.2.region = region else entry.2.HasNoCounters
  | .adjustMessageCounters => ∀ entry ∈ repositories.memory.topics, entry.2.size = 0

instance (repositories : Repositories) : ∀ operation, Decidable (Heeds repositories operation)
  | .createTopic _ _ => inferInstanceAs (Decidable (_ ∉ _))
  | .updateTopic topic => inferInstanceAs (Decidable (∃ entry ∈ repositories.memory.topics,
      Identifies repositories.memory.topics topic entry))
  | .createMessage _ _ => isFalse id
  | .setMessageStatus _ _ _ | .deleteMessage _ => isTrue trivial
  | .deleteOldMessages _ _ | .purgeTopic _ =>
    inferInstanceAs (Decidable (∀ entry ∈ repositories.memory.topics, entry.2.HasNoCounters))
  | .deleteTopic region topicArn =>
    inferInstanceAs (Decidable (∀ entry ∈ repositories.memory.topics,
      if entry.2.topicArn = topicArn then entry.2.region = region else entry.2.HasNoCounters))
  | .adjustMessageCounters =>
    inferInstanceAs (Decidable (∀ entry ∈ repositories.memory.topics, entry.2.size = 0))

structure Related (repositories : Repositories) : Prop where
  running : repositories.memory.crashed = false
  memoryMessages : repositories.memory.messages = []
  mongoMessages : repositories.mongo.messages = []
  oids : ∀ entry ∈ repositories.memory.topics, entry.2.oid = entry.1
  keys : (repositories.memory.topics.map Prod.fst).Nodup
  topics : (repositories.memory.topics.map fun entry => entry.2.content).Perm
    (repositories.mongo.topics.map Topic.content)

end Definitions

section Lists

variable {α : Type*} [DecidableEq α]

theorem perm_rewriteFirst {x : α} {rewrite : α → α} {xs : List α} (hmem : x ∈ xs) :
    (x :: rewriteFirst (fun y => y = x) rewrite xs).Perm (rewrite x :: xs) := by
  induction xs with
  | nil => cases hmem
  | cons y xs ih =>
    rw [rewriteFirst_cons]
    split
    · next hselect =>
      obtain rfl : y = x := of_decide_eq_true hselect
      exact List.Perm.swap _ _ _
    · next hselect =>
      have hne : x ≠ y := fun heq => hselect (decide_eq_true heq.symm)
      refine (List.Perm.swap _ _ _).trans (((ih ?_).cons y).trans (List.Perm.swap _ _ _))
      exact (List.mem_cons.mp hmem).resolve_left hne

theorem rewriteFirst_perm {x : α} {rewrite : α → α} {xs ys : List α} (hmem : x ∈ xs)
    (hperm : xs.Perm ys) :
    (rewriteFirst (fun y => y = x) rewrite xs).Perm (rewriteFirst (fun y => y = x) rewrite ys) := by
  have hfirst := @perm_rewriteFirst _ _ _ rewrite _ hmem
  have hsecond := @perm_rewriteFirst _ _ _ rewrite _ (hperm.mem_iff.mp hmem)
  exact ((hfirst.trans (hperm.cons _)).trans hsecond.symm).cons_inv

end Lists

section Steps

variable {repositories : Repositories}

theorem Related.agrees (hrelated : Related repositories) : Agrees repositories where
  running := hrelated.running
  messageExists messageId := by
    rw [MemoryRepository.messageExists, MongoRepository.messageExists, hrelated.memoryMessages,
      hrelated.mongoMessages]
    rfl
  getMessageByMessageId messageId message hfind := by
    rw [MongoRepository.getMessageByMessageId, hrelated.mongoMessages] at hfind
    cases hfind
  countMessages topicArn := by
    rw [MemoryRepository.countMessages, MongoRepository.countMessages, hrelated.memoryMessages,
      hrelated.mongoMessages]
    rfl
  listTopics region := by
    rw [MemoryRepository.listTopics, MongoRepository.listTopics]
    have htopics := hrelated.topics
    rw [← Function.comp_def Topic.content Prod.snd, ← List.map_map] at htopics
    split
    · exact htopics
    · have hfilter := htopics.filter fun topic => topic.region = region
      have hcommute (topics : List Topic) :
          (topics.map Topic.content).filter (fun topic => topic.region = region) =
            (topics.filter fun topic => topic.region = region).map Topic.content :=
        List.filter_map
      rw [hcommute, hcommute] at hfilter
      exact hfilter

theorem adjustTopics_nil {mongo : MongoRepository} (hnone : mongo.messages = [])
    (topics : List Topic) :
    mongo.adjustTopics topics = topics.map fun topic => (topic.setCounters 0 0 0).setSize 0 := by
  rw [MongoRepository.adjustTopics, hnone]
  rfl

variable {topic : Topic} {topics : List (Entry Topic)} {memory : MemoryRepository}

theorem setCounters_of_none (hnone : topic.HasNoCounters) :
    (topic.setCounters 0 0 0).setSize 0 = topic := by
  obtain ⟨oid, region, topicName, topicArn, tags, size, messages, messagesSend, messagesResend⟩ :=
    topic
  obtain ⟨hsize, hmessages, hsend, hresend⟩ := hnone
  change size = 0 at hsize
  change messages = 0 at hmessages
  change messagesSend = 0 at hsend
  change messagesResend = 0 at hresend
  subst hsize hmessages hsend hresend
  rfl

theorem perm_adjustTopics {contents : List Topic} {topics : List Topic}
    {mongo : MongoRepository} (hnone : mongo.messages = [])
    (hperm : contents.Perm (topics.map Topic.content))
    (hcounters : ∀ content ∈ contents, content.HasNoCounters) :
    contents.Perm ((mongo.adjustTopics topics).map Topic.content) := by
  rw [adjustTopics_nil hnone, List.map_map]
  have hmapped := hperm.map fun topic => (topic.setCounters 0 0 0).setSize 0
  have hsame : contents.map (fun topic => (topic.setCounters 0 0 0).setSize 0) = contents := by
    conv_rhs => rw [← List.map_id contents]
    exact List.map_congr_left fun topic htopic => setCounters_of_none (hcounters topic htopic)
  rw [hsame, List.map_map] at hmapped
  exact hmapped

theorem related_createTopic {draw : Draw} (hrelated : Related repositories)
    (hfresh : draw.memoryOid ∉ repositories.memory.topics.map Prod.fst) :
    Related (step repositories (.createTopic topic draw)) := by
  have hnone : (repositories.memory.topics.any fun other => other.1 = draw.memoryOid) = false := by
    rw [List.any_eq_false]
    intro other hother heq
    exact hfresh (of_decide_eq_true heq ▸ List.mem_map_of_mem hother)
  have htopics : (step repositories (.createTopic topic draw)).memory.topics =
      repositories.memory.topics.take draw.place ++
        (draw.memoryOid, { topic with oid := draw.memoryOid }) ::
          repositories.memory.topics.drop draw.place := by
    change MemoryRepository.assign _ _ _ = _
    rw [MemoryRepository.assign, if_neg (by rw [hnone]; exact Bool.false_ne_true)]
  have hperm : (step repositories (.createTopic topic draw)).memory.topics.Perm
      ((draw.memoryOid, { topic with oid := draw.memoryOid }) :: repositories.memory.topics) := by
    rw [htopics]
    refine List.perm_middle.trans ?_
    rw [List.take_append_drop]
  refine ⟨hrelated.running, hrelated.memoryMessages, hrelated.mongoMessages, ?_, ?_, ?_⟩
  · intro entry hentry
    rcases List.mem_cons.mp (hperm.mem_iff.mp hentry) with rfl | hold
    · rfl
    · exact hrelated.oids entry hold
  · rw [(hperm.map Prod.fst).nodup_iff, List.map_cons, List.nodup_cons]
    exact ⟨hfresh, hrelated.keys⟩
  · refine (hperm.map _).trans ?_
    change List.Perm _ ((repositories.mongo.topics ++ [{ topic with oid := draw.mongoOid }]).map _)
    rw [List.map_append, List.map_cons]
    exact (hrelated.topics.cons _).trans (@List.perm_append_comm _ [_] _)

theorem related_updateTopic {entry : Entry Topic}
    (hrelated : Related repositories) (hentry : entry ∈ repositories.memory.topics)
    (hidentifies : Identifies repositories.memory.topics topic entry) :
    Related (step repositories (.updateTopic topic)) := by
  obtain ⟨hoid, hregion, hname, harn, honly⟩ := hidentifies
  have hcontent : ∀ content ∈ repositories.memory.topics.map fun entry => entry.2.content,
      content.region = topic.region → content.topicName = topic.topicName ∨
        content.topicArn = topic.topicArn → content = entry.2.content := by
    intro content hmem hsame hfound
    obtain ⟨other, hother, rfl⟩ := List.mem_map.mp hmem
    rw [honly other hother hsame hfound]
  let isNamed (other : Entry Topic) : Bool :=
    other.2.region = topic.region && other.2.topicName = topic.topicName
  have hnamed : isNamed entry = true := by
    change (decide _ && decide _) = true
    rw [hregion, hname, decide_eq_true rfl, decide_eq_true rfl]
    rfl
  have hstep : (step repositories (.updateTopic topic)).memory =
      { repositories.memory with
        topics := rewriteFirst isNamed (fun entry => (entry.1, topic))
          repositories.memory.topics } :=
    if_pos (List.any_eq_true.mpr ⟨entry, hentry, hnamed⟩)
  have hwritten : ∀ other ∈ repositories.memory.topics, isNamed other = true → other = entry := by
    intro other hother hselect
    obtain ⟨hsame, hfound⟩ := Bool.and_eq_true _ _ ▸ hselect
    exact honly other hother (of_decide_eq_true hsame) (.inl (of_decide_eq_true hfound))
  refine ⟨?_, ?_, hrelated.mongoMessages, ?_, ?_, ?_⟩
  · rw [hstep]
    exact hrelated.running
  · rw [hstep]
    exact hrelated.memoryMessages
  · rw [hstep]
    intro other hother
    rcases of_mem_rewriteFirst hother with hold | ⟨stored, hstored, hselect, rfl⟩
    · exact hrelated.oids other hold
    · rw [hwritten stored hstored hselect]
      exact hoid.symm
  · rw [hstep]
    change ((rewriteFirst isNamed (fun entry => (entry.1, topic)) _).map Prod.fst).Nodup
    rw [map_rewriteFirst_of_preserved Prod.fst]
    · exact hrelated.keys
    · exact fun _ _ _ => rfl
  · rw [hstep]
    have hmemory : (rewriteFirst isNamed (fun entry => (entry.1, topic))
        repositories.memory.topics).map (fun entry => entry.2.content) =
          rewriteFirst (fun content => content = entry.2.content) (fun _ => topic.content)
            (repositories.memory.topics.map fun entry => entry.2.content) := by
      refine map_rewriteFirst (fun other hother => ?_) fun _ _ _ => rfl
      rw [Bool.eq_iff_iff, decide_eq_true_iff]
      constructor
      · intro hsame
        change (decide (other.2.content.region = _) && decide (other.2.content.topicName = _)) = true
        rw [hsame]
        exact hnamed
      · exact fun hselect => by rw [hwritten other hother hselect]
    have hmongo : (step repositories (.updateTopic topic)).mongo.topics.map Topic.content =
          rewriteFirst (fun content => content = entry.2.content) (fun _ => topic.content)
            (repositories.mongo.topics.map Topic.content) := by
      refine map_rewriteFirst (fun other hother => ?_) fun _ _ _ => rfl
      rw [Bool.eq_iff_iff, decide_eq_true_iff]
      constructor
      · intro hsame
        change (decide (other.content.region = _) && decide (other.content.topicArn = _)) = true
        rw [hsame]
        change (decide (entry.2.region = _) && decide (entry.2.topicArn = _)) = true
        rw [hregion, harn, decide_eq_true rfl, decide_eq_true rfl]
        rfl
      · intro hselect
        obtain ⟨hsame, hfound⟩ := Bool.and_eq_true _ _ ▸ hselect
        exact hcontent other.content (hrelated.topics.mem_iff.mpr (List.mem_map_of_mem hother))
          (of_decide_eq_true hsame) (.inr (of_decide_eq_true hfound))
    change List.Perm ((rewriteFirst isNamed (fun entry => (entry.1, topic))
      repositories.memory.topics).map fun entry => entry.2.content) _
    rw [hmemory, hmongo]
    exact rewriteFirst_perm (List.mem_map_of_mem hentry) hrelated.topics

theorem adjustTopic_eq (hnone : memory.messages = []) (hkeys : (topics.map Prod.fst).Nodup)
    (hmem : topic.oid ∈ topics.map Prod.fst) :
    memory.adjustTopic topics topic =
      topics.map fun entry =>
        if entry.1 = topic.oid then (entry.1, entry.2.setCounters 0 0 0) else entry := by
  have hany : (topics.any fun other => other.1 = topic.oid) = true := by
    obtain ⟨entry, hentry, hkey⟩ := List.mem_map.mp hmem
    exact List.any_eq_true.mpr ⟨entry, hentry, decide_eq_true hkey⟩
  rw [MemoryRepository.adjustTopic, MemoryRepository.assign, if_pos hany,
    rewriteFirst_key_eq_map hkeys]
  apply List.map_congr_left
  intro entry hentry
  split
  · next hkey =>
    have hkey : entry.1 = topic.oid := hkey
    have hfind : (topics.find? fun other => other.1 = topic.oid) = some entry := by
      rw [← hkey]
      exact findKey_of_mem hkeys hentry
    rw [hfind, MemoryRepository.countMessagesByStatus, MemoryRepository.countMessagesByStatus,
      MemoryRepository.countMessagesByStatus, hnone, hkey]
    rfl
  · rfl

theorem foldl_adjustTopic (hnone : memory.messages = [])
    (written : List Topic) (hkeys : (topics.map Prod.fst).Nodup)
    (hwritten : ∀ topic ∈ written, topic.oid ∈ topics.map Prod.fst) :
    written.foldl memory.adjustTopic topics =
      topics.map fun entry =>
        if entry.1 ∈ written.map Topic.oid then (entry.1, entry.2.setCounters 0 0 0)
        else entry := by
  induction written generalizing topics with
  | nil => exact (List.map_id topics).symm
  | cons topic written ih =>
    have hstep := adjustTopic_eq hnone hkeys (hwritten topic List.mem_cons_self)
    have hsame : (memory.adjustTopic topics topic).map Prod.fst = topics.map Prod.fst := by
      rw [hstep, List.map_map]
      apply List.map_congr_left
      intro entry _
      rw [Function.comp_apply]
      split <;> rfl
    rw [List.foldl_cons, ih (hsame ▸ hkeys) fun other hother =>
      hsame ▸ hwritten other (List.mem_cons_of_mem _ hother), hstep, List.map_map]
    apply List.map_congr_left
    intro entry _
    rw [Function.comp_apply]
    by_cases hkey : entry.1 = topic.oid
    · have hmem : entry.1 ∈ (topic :: written).map Topic.oid := by
        rw [hkey]
        exact List.mem_cons_self
      rw [if_pos hkey, if_pos hmem]
      split <;> rfl
    · rw [if_neg hkey]
      have hmem : entry.1 ∈ (topic :: written).map Topic.oid ↔ entry.1 ∈ written.map Topic.oid := by
        rw [List.map_cons, List.mem_cons, or_iff_right hkey]
      split
      · next hlater => rw [if_pos (hmem.mpr hlater)]
      · next hlater => rw [if_neg (hlater ∘ hmem.mp)]

theorem related_adjustMessageCounters (hrelated : Related repositories)
    (hsizes : ∀ entry ∈ repositories.memory.topics, entry.2.size = 0) :
    Related (step repositories .adjustMessageCounters) := by
  have htopics : (step repositories .adjustMessageCounters).memory.topics =
      repositories.memory.topics.map fun entry => (entry.1, entry.2.setCounters 0 0 0) := by
    change (repositories.memory.topics.map Prod.snd).foldl _ _ = _
    rw [foldl_adjustTopic hrelated.memoryMessages _ hrelated.keys]
    · apply List.map_congr_left
      intro entry hentry
      rw [if_pos]
      rw [← hrelated.oids entry hentry, List.map_map]
      exact List.mem_map.mpr ⟨entry, hentry, rfl⟩
    · intro topic htopic
      obtain ⟨entry, hentry, rfl⟩ := List.mem_map.mp htopic
      rw [hrelated.oids entry hentry]
      exact List.mem_map_of_mem hentry
  refine ⟨hrelated.running, hrelated.memoryMessages, hrelated.mongoMessages, ?_, ?_, ?_⟩
  · rw [htopics]
    intro entry hentry
    obtain ⟨stored, hstored, rfl⟩ := List.mem_map.mp hentry
    exact hrelated.oids stored hstored
  · rw [htopics, List.map_map]
    exact hrelated.keys
  · rw [htopics, List.map_map]
    change List.Perm _ ((repositories.mongo.adjustTopics _).map _)
    rw [adjustTopics_nil hrelated.mongoMessages, List.map_map]
    have hmapped := hrelated.topics.map fun topic => (topic.setCounters 0 0 0).setSize 0
    rw [List.map_map, List.map_map] at hmapped
    refine List.Perm.trans ?_ hmapped
    refine List.Perm.of_eq (List.map_congr_left fun entry hentry => ?_)
    have hsize := hsizes entry hentry
    obtain ⟨oid, topic⟩ := entry
    obtain ⟨oid', region, topicName, topicArn, tags, size, messages, messagesSend,
      messagesResend⟩ := topic
    change size = 0 at hsize
    subst hsize
    rfl

theorem related_adjusted (hrelated : Related repositories)
    (hcounters : ∀ entry ∈ repositories.memory.topics, entry.2.HasNoCounters) :
    Related ⟨{ repositories.memory with messages := [] },
      { topics := repositories.mongo.adjustTopics repositories.mongo.topics, messages := [] }⟩ := by
  refine ⟨hrelated.running, rfl, rfl, hrelated.oids, hrelated.keys, ?_⟩
  refine perm_adjustTopics hrelated.mongoMessages hrelated.topics fun content hcontent => ?_
  obtain ⟨entry, hentry, rfl⟩ := List.mem_map.mp hcontent
  exact hcounters entry hentry

theorem related_deleteTopic {region topicArn : String} (hrelated : Related repositories)
    (hheeds : ∀ entry ∈ repositories.memory.topics,
      if entry.2.topicArn = topicArn then entry.2.region = region else entry.2.HasNoCounters) :
    Related (step repositories (.deleteTopic region topicArn)) := by
  have hfilter : (step repositories (.deleteTopic region topicArn)).memory.topics =
      repositories.memory.topics.filter fun entry => entry.2.content.topicArn ≠ topicArn := by
    apply List.filter_congr
    intro entry hentry
    have hentry := hheeds entry hentry
    rw [decide_eq_decide]
    split at hentry
    · next harn => exact ⟨fun hnot => absurd ⟨hentry, harn⟩ hnot, fun hnot => absurd harn hnot⟩
    · next harn => exact ⟨fun _ => harn, fun _ hboth => harn hboth.2⟩
  refine ⟨hrelated.running, hrelated.memoryMessages, hrelated.mongoMessages, ?_, ?_, ?_⟩
  · rw [hfilter]
    exact fun entry hentry => hrelated.oids entry (List.mem_of_mem_filter hentry)
  · rw [hfilter]
    exact (List.Sublist.map _ List.filter_sublist).nodup hrelated.keys
  · rw [hfilter]
    have hperm := hrelated.topics.filter fun content => content.topicArn ≠ topicArn
    rw [List.filter_map, List.filter_map] at hperm
    refine perm_adjustTopics hrelated.mongoMessages hperm ?_
    intro content hcontent
    obtain ⟨entry, hentry, rfl⟩ := List.mem_map.mp hcontent
    obtain ⟨hstored, hother⟩ := List.mem_filter.mp hentry
    have hheeds := hheeds entry hstored
    have hother : entry.2.topicArn ≠ topicArn := of_decide_eq_true hother
    rw [if_neg hother] at hheeds
    exact hheeds

theorem related_step {operation : Operation} (hrelated : Related repositories)
    (hheeds : Heeds repositories operation) : Related (step repositories operation) := by
  have hmemory := hrelated.memoryMessages
  have hmongo := hrelated.mongoMessages
  cases operation with
  | createTopic topic draw => exact related_createTopic hrelated hheeds
  | updateTopic topic =>
    obtain ⟨entry, hentry, hidentifies⟩ := hheeds
    exact related_updateTopic hrelated hentry hidentifies
  | createMessage message draw => exact hheeds.elim
  | setMessageStatus memoryOid mongoOid status =>
    refine ⟨hrelated.running, ?_, ?_, hrelated.oids, hrelated.keys, hrelated.topics⟩
    · change rewriteFirst _ _ repositories.memory.messages = []
      rw [hmemory]
      rfl
    · change rewriteFirst _ _ repositories.mongo.messages = []
      rw [hmongo]
      rfl
  | deleteMessage messageId =>
    refine ⟨hrelated.running, ?_, ?_, hrelated.oids, hrelated.keys, hrelated.topics⟩
    · change repositories.memory.messages.filter _ = []
      rw [hmemory]
      rfl
    · change repositories.mongo.messages.eraseP _ = []
      rw [hmongo]
      rfl
  | deleteOldMessages timeout now =>
    have hadjusted := related_adjusted hrelated hheeds
    obtain ⟨⟨topics, messages, crashed⟩, ⟨documents, messages'⟩⟩ := repositories
    change messages = [] at hmemory
    change messages' = [] at hmongo
    subst hmemory hmongo
    exact hadjusted
  | purgeTopic topicArn =>
    have hadjusted := related_adjusted hrelated hheeds
    obtain ⟨⟨topics, messages, crashed⟩, ⟨documents, messages'⟩⟩ := repositories
    change messages = [] at hmemory
    change messages' = [] at hmongo
    subst hmemory hmongo
    exact hadjusted
  | deleteTopic region topicArn => exact related_deleteTopic hrelated hheeds
  | adjustMessageCounters => exact related_adjustMessageCounters hrelated hheeds

theorem related_nil : Related {} :=
  ⟨rfl, rfl, rfl, nofun, List.nodup_nil, List.Perm.refl _⟩

end Steps

def news : Topic :=
  { region := "eu", topicName := "news", topicArn := "arn:news" }

end AwsMock.Sns.Messages
