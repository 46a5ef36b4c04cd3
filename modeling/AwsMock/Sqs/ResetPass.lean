import AwsMock.Sqs.Content
import AwsMock.Sqs.Retention

/-! # One pass of the periodic reset

The pass goes through the queues once and applies retention, visibility
timeouts and delays to the messages of each. Messages are filed under ARNs, but
delays are looked up by URL in memory, and by a field no message has in MongoDB;
the in-memory retention never returns when a delayed message is due.
-/

namespace AwsMock.Sqs

open Foundation Action MongoRepository

/-- Whether the delay or the visibility timeout of a message has passed. -/
def Message.isTimedOut (now : Time) (message : Message) : Bool :=
  (message.hasStatus .delayed || message.hasStatus .invisible) && decide (message.reset < now)

/-- What a pass is for: messages whose time has passed can be received in their
queue again, other messages are as they were, but for open ones that are older
than the retention period of their queue. -/
structure PassesRightly (now : Time) (queues : List Queue) (before after : List Message) :
    Prop where
  opened : ∀ message ∈ before, message.isTimedOut now = true →
    ∃ released ∈ after, released.oid = message.oid ∧ released.isReady message.queueArn = true ∧
      (message.status = .invisible → released.receiptHandle = "")
  waiting : ∀ message ∈ before, message.status = .delayed ∨ message.status = .invisible →
    now ≤ message.reset → message ∈ after
  retained : ∀ message ∈ before, message.status = .initial →
    (∀ queue ∈ queues, queue.arn = message.queueArn →
      now - seconds queue.attributes.messageRetentionPeriod ≤ message.created) →
    message ∈ after

section Memory

variable {now : Time} {queue : Queue} {arns : List String} {message : Message}

/-- Whether a pass looks at a queue: messages are filed under its ARN, or its
ARN is empty and there are messages at all. -/
def Queue.isVisited (arns : List String) (queue : Queue) : Bool :=
  arns.any fun arn => decide (queue.arn = "") || decide (arn = queue.arn)

def Message.released (message : Message) : Message :=
  { message with
    status := .initial
    receiptHandle := if message.status = .invisible then "" else message.receiptHandle }

def releasesAt (now : Time) (arns : List String) (queue : Queue) (message : Message) : Bool :=
  decide (0 < queue.attributes.visibilityTimeout) && (message.isIn queue.arn &&
      message.hasStatus .invisible && decide (message.reset < now)) ||
    queue.isVisited arns && (decide (0 < queue.attributes.delaySeconds) &&
      (message.isIn queue.url && message.hasStatus .delayed && decide (message.reset < now)))

def maintained (now : Time) (arns : List String) (queue : Queue) (message : Message) : Message :=
  if releasesAt now arns queue message then message.released else message

/-- Whether the in-memory retention of a queue waits for a lock it holds. -/
def BlocksAt (now : Time) (queue : Queue) (messages : List Message) : Prop :=
  0 < queue.attributes.messageRetentionPeriod ∧
    ∃ message ∈ messages, message.isDue queue.arn now = true

/-- Whether the in-memory pass reaches the end of the queues. -/
def RunsThrough (now : Time) (arns : List String) : List Queue → List Message → Prop
  | [], _ => True
  | queue :: queues, messages =>
    ¬BlocksAt now queue messages ∧
      RunsThrough now arns queues (messages.map (maintained now arns queue))

def passed (now : Time) (arns : List String) (queues : List Queue) (message : Message) : Message :=
  queues.foldl (fun message queue => maintained now arns queue message) message

/-- When the in-memory pass does what it is for: every claimed message whose time
has passed is in a queue with a visibility timeout; every delayed one is filed
under the URL of a queue with a delay, and the pass gets there before it comes to
a queue with that ARN and a retention period. -/
structure MemoryPassCondition (now : Time) (arns : List String) (queues : List Queue)
    (messages : List Message) : Prop where
  invisible : ∀ message ∈ messages, message.status = .invisible → message.reset < now →
    ∃ queue ∈ queues, queue.arn = message.queueArn ∧ 0 < queue.attributes.visibilityTimeout
  delayed : ∀ message ∈ messages, message.status = .delayed → message.reset < now →
    ∃ earlier queue later, queues = earlier ++ queue :: later ∧
      queue.isVisited arns = true ∧ queue.url = message.queueArn ∧
      0 < queue.attributes.delaySeconds ∧
      ∀ other ∈ earlier ++ [queue], other.arn = message.queueArn →
        other.attributes.messageRetentionPeriod ≤ 0

theorem isTimedOut_iff :
    message.isTimedOut now = true ↔
      (message.status = .delayed ∨ message.status = .invisible) ∧ message.reset < now := by
  simp [Message.isTimedOut, Message.hasStatus]

theorem releasesAt_iff :
    releasesAt now arns queue message = true ↔ message.reset < now ∧
        (message.status = .invisible ∧ 0 < queue.attributes.visibilityTimeout ∧
            message.queueArn = queue.arn ∨
          message.status = .delayed ∧ 0 < queue.attributes.delaySeconds ∧
            message.queueArn = queue.url ∧ queue.isVisited arns = true) := by
  simp only [releasesAt, Message.hasStatus, Message.isIn, Bool.or_eq_true, Bool.and_eq_true,
    decide_eq_true_eq]
  tauto

theorem isTimedOut_of_releasesAt (hreleases : releasesAt now arns queue message = true) :
    message.isTimedOut now = true := by
  obtain ⟨hreset, hcase⟩ := releasesAt_iff.mp hreleases
  rcases hcase with ⟨hstatus, -⟩ | ⟨hstatus, -⟩
  · exact isTimedOut_iff.mpr ⟨Or.inr hstatus, hreset⟩
  · exact isTimedOut_iff.mpr ⟨Or.inl hstatus, hreset⟩

theorem maintained_of_not (hreleases : releasesAt now arns queue message = false) :
    maintained now arns queue message = message := by
  rw [maintained, hreleases]
  rfl

theorem maintained_of_releases (hreleases : releasesAt now arns queue message = true) :
    maintained now arns queue message = message.released :=
  if_pos hreleases

theorem maintained_of_not_isTimedOut (hwaits : message.isTimedOut now = false) :
    maintained now arns queue message = message := by
  apply maintained_of_not
  rw [Bool.eq_false_iff]
  intro hreleases
  rw [isTimedOut_of_releasesAt hreleases] at hwaits
  cases hwaits

theorem passed_of_not_isTimedOut {queues : List Queue} (hwaits : message.isTimedOut now = false) :
    passed now arns queues message = message := by
  induction queues with
  | nil => rfl
  | cons queue queues ih =>
    rw [passed, List.foldl_cons, maintained_of_not_isTimedOut hwaits]
    exact ih

theorem released_not_isTimedOut : message.released.isTimedOut now = false := by
  simp [Message.released, Message.isTimedOut, Message.hasStatus]

theorem passed_eq_or (queues : List Queue) :
    passed now arns queues message = message ∨
      passed now arns queues message = message.released := by
  induction queues with
  | nil => exact Or.inl rfl
  | cons queue queues ih =>
    rw [passed, List.foldl_cons]
    cases hreleases : releasesAt now arns queue message with
    | false =>
      rw [maintained_of_not hreleases]
      exact ih
    | true =>
      rw [maintained_of_releases hreleases]
      exact Or.inr (passed_of_not_isTimedOut released_not_isTimedOut)

@[simp] theorem maintained_queueArn :
    (maintained now arns queue message).queueArn = message.queueArn := by
  rw [maintained]
  split <;> rfl

@[simp] theorem passed_oid (queues : List Queue) :
    (passed now arns queues message).oid = message.oid := by
  rcases passed_eq_or queues with heq | heq <;> rw [heq]
  rfl

theorem not_releasesAt_of_isTimedOut
    (htimed : (maintained now arns queue message).isTimedOut now = true) :
    releasesAt now arns queue message = false := by
  rw [Bool.eq_false_iff]
  intro hreleases
  rw [maintained_of_releases hreleases, released_not_isTimedOut] at htimed
  cases htimed

theorem retention_le_of_not_blocksAt {messages : List Message}
    (hblocks : ¬BlocksAt now queue messages) (hmessage : message ∈ messages)
    (hstatus : message.status = .delayed) (hreset : message.reset < now)
    (harn : queue.arn = message.queueArn) : queue.attributes.messageRetentionPeriod ≤ 0 := by
  by_contra hpositive
  apply hblocks
  refine ⟨Int.not_le.mp hpositive, message, hmessage, ?_⟩
  simp [Message.isDue, Message.isIn, Message.hasStatus, harn, hstatus, hreset]

theorem memoryPassCondition_cons {queues : List Queue} {messages : List Message} :
    MemoryPassCondition now arns (queue :: queues) messages ↔ ¬BlocksAt now queue messages ∧
        MemoryPassCondition now arns queues (messages.map (maintained now arns queue)) := by
  constructor
  · rintro ⟨hinvisible, hdelayed⟩
    refine ⟨?_, fun other hother hstatus hreset => ?_, fun other hother hstatus hreset => ?_⟩
    · rintro ⟨hpositive, message, hmessage, hdue⟩
      simp only [Message.isDue, Message.isIn, Message.hasStatus, Bool.and_eq_true,
        decide_eq_true_eq] at hdue
      obtain ⟨earlier, found, later, hsplit, -, -, -, hretention⟩ :=
        hdelayed message hmessage hdue.1.2 hdue.2
      have hmem : queue ∈ earlier ++ [found] := by
        cases earlier with
        | nil =>
          injection hsplit with hqueue
          rw [hqueue]
          exact List.mem_cons_self
        | cons head rest =>
          injection hsplit with hqueue
          rw [hqueue]
          exact List.mem_cons_self
      exact absurd (hretention queue hmem hdue.1.1.symm) (Int.not_le.mpr hpositive)
    · obtain ⟨message, hmessage, rfl⟩ := List.mem_map.mp hother
      have hstays := not_releasesAt_of_isTimedOut (isTimedOut_iff.mpr ⟨Or.inr hstatus, hreset⟩)
      rw [maintained_of_not hstays] at hstatus hreset ⊢
      obtain ⟨found, hfound, harn, hvisibility⟩ := hinvisible message hmessage hstatus hreset
      rcases List.mem_cons.mp hfound with rfl | hrest
      · rw [Bool.eq_false_iff] at hstays
        exact absurd (releasesAt_iff.mpr ⟨hreset, Or.inl ⟨hstatus, hvisibility, harn.symm⟩⟩) hstays
      · exact ⟨found, hrest, harn, hvisibility⟩
    · obtain ⟨message, hmessage, rfl⟩ := List.mem_map.mp hother
      have hstays := not_releasesAt_of_isTimedOut (isTimedOut_iff.mpr ⟨Or.inl hstatus, hreset⟩)
      rw [maintained_of_not hstays] at hstatus hreset ⊢
      obtain ⟨earlier, found, later, hsplit, hvisited, hurl, hdelay, hretention⟩ :=
        hdelayed message hmessage hstatus hreset
      cases earlier with
      | nil =>
        injection hsplit with hqueue
        subst hqueue
        rw [Bool.eq_false_iff] at hstays
        exact absurd (releasesAt_iff.mpr
          ⟨hreset, Or.inr ⟨hstatus, hdelay, hurl.symm, hvisited⟩⟩) hstays
      | cons head rest =>
        injection hsplit with hqueue hsplit
        exact ⟨rest, found, later, hsplit, hvisited, hurl, hdelay, fun other hother =>
          hretention other (List.mem_cons_of_mem _ hother)⟩
  · rintro ⟨hblocks, hinvisible, hdelayed⟩
    refine ⟨fun message hmessage hstatus hreset => ?_, fun message hmessage hstatus hreset => ?_⟩
    · cases hreleases : releasesAt now arns queue message with
      | true =>
        obtain ⟨-, ⟨-, hvisibility, harn⟩ | ⟨hother, -⟩⟩ := releasesAt_iff.mp hreleases
        · exact ⟨queue, List.mem_cons_self, harn.symm, hvisibility⟩
        · rw [hstatus] at hother
          cases hother
      | false =>
        have hmem : maintained now arns queue message ∈
            messages.map (maintained now arns queue) := List.mem_map_of_mem hmessage
        rw [maintained_of_not hreleases] at hmem
        obtain ⟨found, hfound, hrest⟩ := hinvisible message hmem hstatus hreset
        exact ⟨found, List.mem_cons_of_mem _ hfound, hrest⟩
    · have hretention := retention_le_of_not_blocksAt hblocks hmessage hstatus hreset
      cases hreleases : releasesAt now arns queue message with
      | true =>
        obtain ⟨-, ⟨hother, -⟩ | ⟨-, hdelay, hurl, hvisited⟩⟩ := releasesAt_iff.mp hreleases
        · rw [hstatus] at hother
          cases hother
        · refine ⟨[], queue, queues, rfl, hvisited, hurl.symm, hdelay, fun other hother => ?_⟩
          rw [List.mem_singleton.mp hother]
          exact hretention
      | false =>
        have hmem : maintained now arns queue message ∈
            messages.map (maintained now arns queue) := List.mem_map_of_mem hmessage
        rw [maintained_of_not hreleases] at hmem
        obtain ⟨earlier, found, later, hsplit, hvisited, hurl, hdelay, hothers⟩ :=
          hdelayed message hmem hstatus hreset
        refine ⟨queue :: earlier, found, later, by rw [hsplit]; rfl, hvisited, hurl, hdelay,
          fun other hother => ?_⟩
        rcases List.mem_cons.mp hother with rfl | hrest
        · exact hretention
        · exact hothers other hrest

theorem runsThrough_and_released_iff (queues : List Queue) (messages : List Message) :
    (RunsThrough now arns queues messages ∧ ∀ message ∈ messages, message.isTimedOut now = true →
        passed now arns queues message = message.released) ↔
      MemoryPassCondition now arns queues messages := by
  induction queues generalizing messages with
  | nil =>
    constructor
    · rintro ⟨-, hreleased⟩
      have hnone : ∀ message ∈ messages, message.isTimedOut now = false := by
        intro message hmessage
        rw [Bool.eq_false_iff]
        intro htimed
        have hsame : message.released.isTimedOut now = message.isTimedOut now :=
          congrArg _ (hreleased message hmessage htimed).symm
        rw [released_not_isTimedOut, htimed] at hsame
        cases hsame
      constructor
      · intro message hmessage hstatus hreset
        have hwaits := hnone message hmessage
        rw [isTimedOut_iff.mpr ⟨Or.inr hstatus, hreset⟩] at hwaits
        cases hwaits
      · intro message hmessage hstatus hreset
        have hwaits := hnone message hmessage
        rw [isTimedOut_iff.mpr ⟨Or.inl hstatus, hreset⟩] at hwaits
        cases hwaits
    · rintro ⟨hinvisible, hdelayed⟩
      refine ⟨trivial, fun message hmessage htimed => ?_⟩
      obtain ⟨hstatus | hstatus, hreset⟩ := isTimedOut_iff.mp htimed
      · obtain ⟨earlier, found, later, hsplit, -⟩ := hdelayed message hmessage hstatus hreset
        cases earlier <;> cases hsplit
      · obtain ⟨found, hfound, -⟩ := hinvisible message hmessage hstatus hreset
        cases hfound
  | cons queue queues ih =>
    rw [memoryPassCondition_cons, ← ih, RunsThrough, and_assoc]
    refine and_congr_right fun _ => and_congr_right fun _ => ?_
    constructor
    · intro hreleased other hother htimed
      obtain ⟨message, hmessage, rfl⟩ := List.mem_map.mp hother
      have hstays := not_releasesAt_of_isTimedOut htimed
      have hfirst := hreleased message hmessage
      rw [passed, List.foldl_cons] at hfirst
      rw [maintained_of_not hstays] at htimed hfirst ⊢
      exact hfirst htimed
    · intro hreleased message hmessage htimed
      rw [passed, List.foldl_cons]
      cases hreleases : releasesAt now arns queue message with
      | true =>
        rw [maintained_of_releases hreleases]
        exact passed_of_not_isTimedOut released_not_isTimedOut
      | false =>
        have hrest := hreleased _ (List.mem_map_of_mem hmessage)
        rw [maintained_of_not hreleases] at hrest ⊢
        exact hrest htimed

end Memory

section MemoryRun

variable (random : RandomSource) (now : Time) (queue : Queue) (world : World MemoryStore)

/-- The parts of a queue snapshot that a pass reads and does not change. -/
structure Queue.SameSettings (queue snapshot : Queue) : Prop where
  arn : snapshot.arn = queue.arn
  url : snapshot.url = queue.url
  visibilityTimeout : snapshot.attributes.visibilityTimeout = queue.attributes.visibilityTimeout
  delaySeconds : snapshot.attributes.delaySeconds = queue.attributes.delaySeconds

theorem Queue.SameSettings.refl : queue.SameSettings queue := ⟨rfl, rfl, rfl, rfl⟩

variable {queue} in
theorem Queue.SameSettings.trans {snapshot other : Queue} (hfirst : queue.SameSettings snapshot)
    (hsecond : snapshot.SameSettings other) : queue.SameSettings other :=
  ⟨hsecond.arn.trans hfirst.arn, hsecond.url.trans hfirst.url,
    hsecond.visibilityTimeout.trans hfirst.visibilityTimeout,
    hsecond.delaySeconds.trans hfirst.delaySeconds⟩

structure Rewrites (rewrite : Message → Message) (before after : World MemoryStore) : Prop where
  values : after.store.messages.values = before.store.messages.values.map rewrite
  keyed : (∀ entry ∈ before.store.messages.entries, entry.2.oid = entry.1) →
    ∀ entry ∈ after.store.messages.entries, entry.2.oid = entry.1

theorem Rewrites.refl : Rewrites id world world :=
  ⟨(List.map_id _).symm, id⟩

variable {world} in
theorem Rewrites.trans {first second : Message → Message} {middle after : World MemoryStore}
    (hfirst : Rewrites first world middle) (hsecond : Rewrites second middle after) :
    Rewrites (fun message => second (first message)) world after := by
  refine ⟨?_, fun hkeyed => hsecond.keyed (hfirst.keyed hkeyed)⟩
  rw [hsecond.values, hfirst.values, List.map_map]
  rfl

variable {world} in
theorem Rewrites.queues {rewrite : Message → Message} {after : World MemoryStore}
    (hrewrites : Rewrites rewrite world after) (queues : UnorderedMap String Queue) :
    Rewrites rewrite world { after with store := { after.store with queues } } :=
  ⟨hrewrites.values, hrewrites.keyed⟩

theorem rewrites_rewriteIf {select : Message → Bool} {rewrite : Message → Message}
    (hoid : ∀ message, (rewrite message).oid = message.oid) :
    Rewrites (fun message => if select message then rewrite message else message) world
      { world with
        store := { world.store with
          messages := world.store.messages.rewriteIf select rewrite } } :=
  ⟨UnorderedMap.values_rewriteIf _ _ _, fun hkeyed => keyed_rewriteIf hkeyed hoid⟩

theorem run_updateQueue_memory (snapshot : Queue) :
    ∃ value queues, (MemoryRepository.updateQueue now snapshot).run [] world =
      .returns value { world with store := { world.store with queues } } := by
  rw [MemoryRepository.updateQueue, run_scopedLock_free List.not_mem_nil]
  simp only [MemoryRepository.readQueues, MemoryRepository.writeQueues, run_bind,
    Call.run_readStore, Outcome.andThen_returns]
  split
  · exact ⟨_, _, rfl⟩
  · exact ⟨_, _, rfl⟩

variable {queue now world} in
theorem run_applyRetention_memory (hblocks : ¬BlocksAt now queue world.store.messages.values) :
    ∃ snapshot, (Server.applyRetention (memoryRepository random) now queue).run [] world =
      .returns snapshot world ∧ queue.SameSettings snapshot := by
  rw [Server.applyRetention]
  split
  next hperiod =>
    have hnone : ∀ message ∈ world.store.messages.values, message.isDue queue.arn now = false := by
      intro message hmessage
      rw [Bool.eq_false_iff]
      exact fun hdue => hblocks ⟨hperiod, message, hmessage, hdue⟩
    rw [run_bind, memoryRepository, MemoryRepository.run_messageRetention_of_none hnone]
    exact ⟨_, rfl, rfl, rfl, rfl, rfl⟩
  next => exact ⟨queue, rfl, Queue.SameSettings.refl queue⟩

def timeVisible (now : Time) (queue : Queue) (message : Message) : Message :=
  if decide (0 < queue.attributes.visibilityTimeout) && (message.isIn queue.arn &&
      message.hasStatus .invisible && decide (message.reset < now)) then
    { message with status := .initial, receiptHandle := "" }
  else message

def timeDelayed (now : Time) (queue : Queue) (message : Message) : Message :=
  if decide (0 < queue.attributes.delaySeconds) && (message.isIn queue.url &&
      message.hasStatus .delayed && decide (message.reset < now)) then
    { message with status := .initial }
  else message

theorem run_applyVisibility_memory :
    ∃ snapshot after, (Server.applyVisibility (memoryRepository random) now queue).run [] world =
      .returns snapshot after ∧ queue.SameSettings snapshot ∧
      Rewrites (timeVisible now queue) world after := by
  rw [Server.applyVisibility]
  split
  next hvisibility =>
    have hrun : ((memoryRepository random).resetMessages now queue.arn
        queue.attributes.visibilityTimeout).run [] world = _ := MemoryRepository.run_rewriteMessages
    rw [run_bind, hrun]
    refine ⟨_, _, rfl, ⟨rfl, rfl, rfl, rfl⟩, ?_⟩
    have htimed : timeVisible now queue = fun message =>
        if message.isIn queue.arn && message.hasStatus .invisible && decide (message.reset < now)
        then { message with status := .initial, receiptHandle := "" } else message := by
      funext message
      rw [timeVisible, decide_eq_true hvisibility, Bool.true_and]
    rw [htimed]
    exact rewrites_rewriteIf world fun _ => rfl
  next hvisibility =>
    have htimed : timeVisible now queue = id := by
      funext message
      rw [timeVisible, decide_eq_false hvisibility]
      rfl
    rw [htimed]
    exact ⟨queue, world, rfl, Queue.SameSettings.refl queue, Rewrites.refl world⟩

theorem run_applyDelay_memory :
    ∃ snapshot after, (Server.applyDelay (memoryRepository random) now queue).run [] world =
      .returns snapshot after ∧ Rewrites (timeDelayed now queue) world after := by
  rw [Server.applyDelay]
  split
  next hdelay =>
    have hrun : ((memoryRepository random).resetDelayedMessages now queue.url
        queue.attributes.delaySeconds).run [] world = _ := MemoryRepository.run_rewriteMessages
    rw [run_bind, hrun]
    refine ⟨_, _, rfl, ?_⟩
    have htimed : timeDelayed now queue = fun message =>
        if message.isIn queue.url && message.hasStatus .delayed && decide (message.reset < now)
        then { message with status := .initial } else message := by
      funext message
      rw [timeDelayed, decide_eq_true hdelay, Bool.true_and]
    rw [htimed]
    exact rewrites_rewriteIf world fun _ => rfl
  next hdelay =>
    have htimed : timeDelayed now queue = id := by
      funext message
      rw [timeDelayed, decide_eq_false hdelay]
      rfl
    rw [htimed]
    exact ⟨queue, world, rfl, Rewrites.refl world⟩

variable {queue now} in
theorem timeVisible_congr {snapshot : Queue} (hsame : queue.SameSettings snapshot)
    (message : Message) : timeVisible now snapshot message = timeVisible now queue message := by
  rw [timeVisible, timeVisible, hsame.visibilityTimeout, hsame.arn]

variable {queue now} in
theorem timeDelayed_congr {snapshot : Queue} (hsame : queue.SameSettings snapshot)
    (message : Message) : timeDelayed now snapshot message = timeDelayed now queue message := by
  rw [timeDelayed, timeDelayed, hsame.delaySeconds, hsame.url]

variable {queue now} in
theorem timeDelayed_of_ne {message : Message} (hstatus : message.status ≠ .delayed) :
    timeDelayed now queue message = message := by
  simp [timeDelayed, Message.hasStatus, hstatus]

variable {queue now} in
theorem timeVisible_of_ne {message : Message} (hstatus : message.status ≠ .invisible) :
    timeVisible now queue message = message := by
  simp [timeVisible, Message.hasStatus, hstatus]

variable {queue now} in
theorem maintained_eq {arns : List String} {message : Message}
    (hvisited : queue.isVisited arns = true) :
    maintained now arns queue message = timeDelayed now queue (timeVisible now queue message) := by
  rw [maintained, releasesAt, hvisited]
  cases hstatus : message.status with
  | invisible =>
    have hclosed : (timeVisible now queue message).status ≠ .delayed := by
      rw [timeVisible]
      split
      · exact MessageStatus.noConfusion
      · rw [hstatus]
        exact MessageStatus.noConfusion
    rw [timeDelayed_of_ne hclosed, timeVisible]
    simp [Message.hasStatus, hstatus, Message.released]
  | delayed =>
    have hopen : message.status ≠ .invisible := by
      rw [hstatus]
      exact MessageStatus.noConfusion
    rw [timeVisible_of_ne hopen, timeDelayed]
    simp [Message.hasStatus, hstatus, Message.released]
  | initial =>
    have hopen : message.status ≠ .invisible ∧ message.status ≠ .delayed := by
      rw [hstatus]
      exact ⟨MessageStatus.noConfusion, MessageStatus.noConfusion⟩
    rw [timeVisible_of_ne hopen.1, timeDelayed_of_ne hopen.2]
    simp [Message.hasStatus, hstatus]
  | unknown =>
    have hopen : message.status ≠ .invisible ∧ message.status ≠ .delayed := by
      rw [hstatus]
      exact ⟨MessageStatus.noConfusion, MessageStatus.noConfusion⟩
    rw [timeVisible_of_ne hopen.1, timeDelayed_of_ne hopen.2]
    simp [Message.hasStatus, hstatus]

variable {queue now} in
theorem maintained_of_not_isVisited {arns : List String} {message : Message}
    (hmessage : message.queueArn ∈ arns) (hvisited : queue.isVisited arns = false) :
    maintained now arns queue message = message := by
  apply maintained_of_not
  rw [Bool.eq_false_iff]
  intro hreleases
  obtain ⟨-, ⟨-, -, harn⟩ | ⟨-, -, -, hother⟩⟩ := releasesAt_iff.mp hreleases
  · rw [Queue.isVisited, List.any_eq_false] at hvisited
    exact hvisited message.queueArn hmessage (by simp [harn])
  · rw [hvisited] at hother
    cases hother

theorem run_countMessages_pos {arns : List String}
    (harns : arns = world.store.messages.values.map Message.queueArn) :
    ∃ count : Int, ((memoryRepository random).countMessages queue.arn "").run [] world =
      .returns count world ∧ (0 < count ↔ queue.isVisited arns = true) := by
  refine ⟨_, rfl, ?_⟩
  rw [Queue.isVisited, harns, List.any_map]
  split
  next hempty =>
    simp [hempty, UnorderedMap.size, UnorderedMap.values, List.length_pos_iff_exists_mem]
  next hne =>
    rw [UnorderedMap.countIf_eq_countP]
    simp [hne, List.countP_pos_iff, Message.isIn]

theorem run_maintainQueue_memory {arns : List String}
    (harns : arns = world.store.messages.values.map Message.queueArn)
    (hblocks : ¬BlocksAt now queue world.store.messages.values) :
    ∃ after, (Server.maintainQueue (memoryRepository random) now queue).run [] world =
        .returns () after ∧ Rewrites (maintained now arns queue) world after := by
  obtain ⟨count, hcount, hpositive⟩ := run_countMessages_pos random queue world harns
  rw [Server.maintainQueue, run_bind, hcount, Outcome.andThen_returns]
  cases hvisited : queue.isVisited arns with
  | false =>
    rw [hvisited] at hpositive
    rw [if_neg (by rw [gt_iff_lt, hpositive]; exact Bool.false_ne_true)]
    refine ⟨world, rfl, ?_, id⟩
    refine (List.map_id _).symm.trans (List.map_congr_left fun message hmessage => ?_)
    have hfiled : message.queueArn ∈ arns := by
      rw [harns]
      exact List.mem_map_of_mem hmessage
    rw [maintained_of_not_isVisited hfiled hvisited]
    rfl
  | true =>
    rw [if_pos (hpositive.mpr hvisited)]
    obtain ⟨first, hretention, hfirst⟩ := run_applyRetention_memory random hblocks
    obtain ⟨second, middle, hvisible, hsecond, hopened⟩ :=
      run_applyVisibility_memory random now first world
    obtain ⟨third, last, hdelayed, hreleased⟩ :=
      run_applyDelay_memory random now second middle
    obtain ⟨value, queues, hupdated⟩ := run_updateQueue_memory now last third
    have hrewritten := (hopened.trans hreleased).queues queues
    refine ⟨{ last with store := { last.store with queues } }, ?_, ?_⟩
    · have hupdate : ((memoryRepository random).updateQueue now third).run [] last = _ := hupdated
      simp only [run_bind, hretention, hvisible, hdelayed, hupdate, Outcome.andThen_returns,
        run_pure]
    · refine ⟨hrewritten.values.trans (List.map_congr_left fun message _ => ?_), hrewritten.keyed⟩
      rw [maintained_eq hvisited]
      rw [timeDelayed_congr (hfirst.trans hsecond), timeVisible_congr hfirst]

theorem run_forM_cons {Store : Type} {state : World Store} {queues : List Queue}
    (body : Queue → Call Mutex Store Unit) :
    ((queue :: queues).forM body).run [] state =
      ((body queue).run [] state).andThen fun _ after => (queues.forM body).run [] after := rfl

variable {queue now world} in
theorem run_maintainQueue_blocked {arns : List String}
    (harns : arns = world.store.messages.values.map Message.queueArn)
    (hblocks : BlocksAt now queue world.store.messages.values) :
    (Server.maintainQueue (memoryRepository random) now queue).run [] world =
      .halts .blocked world := by
  obtain ⟨hperiod, message, hmessage, hdue⟩ := hblocks
  have hfiled : message.queueArn = queue.arn := by
    rw [Message.isDue, Bool.and_eq_true, Bool.and_eq_true] at hdue
    exact of_decide_eq_true hdue.1.1
  have hvisited : queue.isVisited arns = true := by
    rw [Queue.isVisited, List.any_eq_true]
    refine ⟨message.queueArn, ?_, by simp [hfiled]⟩
    rw [harns]
    exact List.mem_map_of_mem hmessage
  obtain ⟨count, hcount, hpositive⟩ := run_countMessages_pos random queue world harns
  have hretention : (Server.applyRetention (memoryRepository random) now queue).run [] world =
      .halts .blocked world := by
    rw [Server.applyRetention, if_pos hperiod, run_bind, memoryRepository,
      MemoryRepository.run_messageRetention_of_due hmessage hdue, Outcome.andThen_halts]
  rw [Server.maintainQueue, run_bind, hcount, Outcome.andThen_returns,
    if_pos (hpositive.mpr hvisited), run_bind, hretention, Outcome.andThen_halts]

variable {now} in
theorem Rewrites.queueArns {arns : List String} {after : World MemoryStore}
    (hrewrites : Rewrites (maintained now arns queue) world after)
    (harns : arns = world.store.messages.values.map Message.queueArn) :
    arns = after.store.messages.values.map Message.queueArn := by
  rw [hrewrites.values, List.map_map, harns]
  exact List.map_congr_left fun message _ => maintained_queueArn.symm

variable {now world} in
theorem run_maintainQueues_memory {queues : List Queue} {arns : List String}
    (harns : arns = world.store.messages.values.map Message.queueArn)
    (hruns : RunsThrough now arns queues world.store.messages.values) :
    ∃ after, (queues.forM (Server.maintainQueue (memoryRepository random) now)).run [] world =
        .returns () after ∧ Rewrites (passed now arns queues) world after := by
  induction queues generalizing world with
  | nil => exact ⟨world, rfl, Rewrites.refl world⟩
  | cons queue queues ih =>
    obtain ⟨middle, hfirst, hmaintained⟩ :=
      run_maintainQueue_memory random now queue world harns hruns.1
    have hrest : RunsThrough now arns queues middle.store.messages.values := by
      rw [hmaintained.values]
      exact hruns.2
    obtain ⟨after, hlast, hpassed⟩ := ih (hmaintained.queueArns queue world harns) hrest
    refine ⟨after, ?_, hmaintained.trans hpassed⟩
    rw [run_forM_cons, hfirst]
    exact hlast

variable {now world} in
theorem run_maintainQueues_blocked {queues : List Queue} {arns : List String}
    (harns : arns = world.store.messages.values.map Message.queueArn)
    (hblocked : ¬RunsThrough now arns queues world.store.messages.values) :
    ∃ after, (queues.forM (Server.maintainQueue (memoryRepository random) now)).run [] world =
      .halts .blocked after := by
  induction queues generalizing world with
  | nil => exact absurd trivial hblocked
  | cons queue queues ih =>
    by_cases hblocks : BlocksAt now queue world.store.messages.values
    · refine ⟨world, ?_⟩
      rw [run_forM_cons, run_maintainQueue_blocked random harns hblocks]
      rfl
    · obtain ⟨middle, hfirst, hmaintained⟩ :=
        run_maintainQueue_memory random now queue world harns hblocks
      have hrest : ¬RunsThrough now arns queues middle.store.messages.values := by
        rw [hmaintained.values]
        exact fun hruns => hblocked ⟨hblocks, hruns⟩
      obtain ⟨after, hlast⟩ := ih (hmaintained.queueArns queue world harns) hrest
      refine ⟨after, ?_⟩
      rw [run_forM_cons, hfirst]
      exact hlast

def MemoryPasses : Prop :=
  ∃ after, (Server.resetMessages (memoryRepository random) now).run [] world = .returns () after ∧
    PassesRightly now world.store.queues.values world.store.messages.values
      after.store.messages.values

theorem run_resetMessages_memory :
    (Server.resetMessages (memoryRepository random) now).run [] world =
      (world.store.queues.values.forM
        (Server.maintainQueue (memoryRepository random) now)).run [] world := rfl

variable {now} in
theorem passesRightly_map_passed {arns : List String} {settings queues : List Queue}
    {messages : List Message}
    (hreleased : ∀ message ∈ messages, message.isTimedOut now = true →
      passed now arns queues message = message.released) :
    PassesRightly now settings messages (messages.map (passed now arns queues)) := by
  constructor
  · intro message hmessage htimed
    refine ⟨_, List.mem_map_of_mem hmessage, ?_⟩
    rw [hreleased message hmessage htimed]
    refine ⟨rfl, by simp [Message.isReady, Message.released, Message.isIn, Message.hasStatus], ?_⟩
    intro hstatus
    rw [Message.released, if_pos hstatus]
  · intro message hmessage _ hreset
    have hwaits : message.isTimedOut now = false := by
      simp [Message.isTimedOut, Int.not_lt.mpr hreset]
    refine List.mem_map.mpr ⟨message, hmessage, passed_of_not_isTimedOut hwaits⟩
  · intro message hmessage hstatus _
    have hwaits : message.isTimedOut now = false := by
      simp [Message.isTimedOut, Message.hasStatus, hstatus]
    refine List.mem_map.mpr ⟨message, hmessage, passed_of_not_isTimedOut hwaits⟩

theorem memoryPasses_iff (hkeyed : ∀ entry ∈ world.store.messages.entries, entry.2.oid = entry.1) :
    MemoryPasses random now world ↔
      MemoryPassCondition now (world.store.messages.values.map Message.queueArn)
        world.store.queues.values world.store.messages.values := by
  rw [← runsThrough_and_released_iff, MemoryPasses, run_resetMessages_memory]
  constructor
  · rintro ⟨after, hrun, hright⟩
    have hruns : RunsThrough now (world.store.messages.values.map Message.queueArn)
        world.store.queues.values world.store.messages.values := by
      by_contra hblocked
      obtain ⟨stuck, hstuck⟩ := run_maintainQueues_blocked random rfl hblocked
      rw [hstuck] at hrun
      cases hrun
    obtain ⟨last, hlast, hrewrites⟩ := run_maintainQueues_memory random rfl hruns
    rw [hlast] at hrun
    injection hrun with _ hafter
    subst hafter
    refine ⟨hruns, fun message hmessage htimed => ?_⟩
    obtain ⟨opened, hopened, hoid, hready, -⟩ := hright.opened message hmessage htimed
    rw [hrewrites.values] at hopened
    obtain ⟨source, hsource, rfl⟩ := List.mem_map.mp hopened
    rw [passed_oid] at hoid
    have hsame : source = message := eq_of_oid_eq hkeyed hsource hmessage hoid
    subst hsame
    rcases @passed_eq_or now _ _ world.store.queues.values with hstays | hreleased
    · rw [hstays] at hready
      have hopen := (isTimedOut_iff.mp htimed).1
      simp only [Message.isReady, Message.hasStatus, Bool.and_eq_true, decide_eq_true_eq] at hready
      rw [hready.2] at hopen
      rcases hopen with hopen | hopen <;> cases hopen
    · exact hreleased
  · rintro ⟨hruns, hreleased⟩
    obtain ⟨after, hrun, hrewrites⟩ := run_maintainQueues_memory random rfl hruns
    refine ⟨after, hrun, ?_⟩
    rw [hrewrites.values]
    exact passesRightly_map_passed hreleased

end MemoryRun

section Documents

variable {now : Time} {queue : Queue} {message : Message} {document : Document}

def retentionFilter (now : Time) (queue : Queue) : Filter :=
  [fieldIs "queueArn" queue.arn,
    (["created"], .lt (now - seconds queue.attributes.messageRetentionPeriod))]

def visibilityFilter (now : Time) (queue : Queue) : Filter :=
  [fieldIs "queueArn" queue.arn, fieldIs "status" MessageStatus.invisible.toString,
    (["reset"], .lt now)]

def visibilityUpdate (now : Time) (queue : Queue) : Update where
  set := [setString "status" MessageStatus.initial.toString, setString "receiptHandle" "",
    (["reset"], .date (now + seconds queue.attributes.visibilityTimeout))]

def maintainedDocument (now : Time) (queue : Queue) (document : Document) : Option Document :=
  if decide (0 < queue.attributes.messageRetentionPeriod) &&
      (retentionFilter now queue).accepts document then none
  else if decide (0 < queue.attributes.visibilityTimeout) &&
      (visibilityFilter now queue).accepts document then
    some ((visibilityUpdate now queue).apply document)
  else some document

def passedDocument (now : Time) : List Queue → Document → Option Document
  | [], document => some document
  | queue :: queues, document =>
    (maintainedDocument now queue document).bind (passedDocument now queues)

/-- Whether retention deletes a message at a queue. A missing date is never old. -/
structure DeletesAt (now : Time) (queue : Queue) (message : Message) (document : Document) :
    Prop where
  period : 0 < queue.attributes.messageRetentionPeriod
  arn : queue.arn = message.queueArn
  dated : document.get? "created" ≠ some (.scalar .null)
  expired : message.created < now - seconds queue.attributes.messageRetentionPeriod

structure OpensAt (now : Time) (queue : Queue) (message : Message) (document : Document) :
    Prop where
  timeout : 0 < queue.attributes.visibilityTimeout
  arn : queue.arn = message.queueArn
  status : message.status = .invisible
  dated : document.get? "reset" ≠ some (.scalar .null)
  passed : message.reset < now

theorem holds_lt_iff {field : String} {time bound : Time}
    (hstores : StoresTime (document.get? field) time) :
    (Condition.lt bound).holds (document.getPath [field]) = true ↔
      document.get? field ≠ some (.scalar .null) ∧ time < bound := by
  rcases hstores with hdate | ⟨hnull, -⟩
  · simp [Condition.holds, hdate]
  · simp [Condition.holds, hnull]

section

variable (hstored : message.StoredAs document)
include hstored

theorem deletesAt_iff :
    (decide (0 < queue.attributes.messageRetentionPeriod) &&
        (retentionFilter now queue).accepts document) = true ↔
      DeletesAt now queue message document := by
  rw [retentionFilter, Filter.accepts_cons, Filter.accepts_cons, Filter.accepts_nil,
    Bool.and_true, Bool.and_eq_true, Bool.and_eq_true, decide_eq_true_eq,
    holds_lt_iff hstored.created]
  have hqueue : (fieldIs "queueArn" queue.arn).2.holds
      (document.getPath (fieldIs "queueArn" queue.arn).1) = message.isIn queue.arn :=
    hstored.holds_queueArn queue.arn
  rw [hqueue, Message.isIn, decide_eq_true_eq]
  constructor
  · rintro ⟨hperiod, harn, hdated, hexpired⟩
    exact ⟨hperiod, harn.symm, hdated, hexpired⟩
  · rintro ⟨hperiod, harn, hdated, hexpired⟩
    exact ⟨hperiod, harn.symm, hdated, hexpired⟩

theorem opensAt_iff :
    (decide (0 < queue.attributes.visibilityTimeout) &&
        (visibilityFilter now queue).accepts document) = true ↔
      OpensAt now queue message document := by
  rw [visibilityFilter, Filter.accepts_cons, Filter.accepts_cons, Filter.accepts_cons,
    Filter.accepts_nil, Bool.and_true, Bool.and_eq_true, Bool.and_eq_true, Bool.and_eq_true,
    decide_eq_true_eq, holds_lt_iff hstored.reset]
  have hqueue : (fieldIs "queueArn" queue.arn).2.holds
      (document.getPath (fieldIs "queueArn" queue.arn).1) = message.isIn queue.arn :=
    hstored.holds_queueArn queue.arn
  have hstatus : (fieldIs "status" MessageStatus.invisible.toString).2.holds
      (document.getPath (fieldIs "status" MessageStatus.invisible.toString).1) =
        message.hasStatus .invisible := hstored.holds_status .invisible
  rw [hqueue, hstatus, Message.isIn, Message.hasStatus, decide_eq_true_eq, decide_eq_true_eq]
  constructor
  · rintro ⟨htimeout, harn, hopen, hdated, hpassed⟩
    exact ⟨htimeout, harn.symm, hopen, hdated, hpassed⟩
  · rintro ⟨htimeout, harn, hopen, hdated, hpassed⟩
    exact ⟨htimeout, harn.symm, hopen, hdated, hpassed⟩

theorem maintainedDocument_of_deletesAt (hdeletes : DeletesAt now queue message document) :
    maintainedDocument now queue document = none :=
  if_pos ((deletesAt_iff hstored).mpr hdeletes)

variable (hkeeps : ¬DeletesAt now queue message document)
include hkeeps

theorem maintainedDocument_of_opensAt (hopens : OpensAt now queue message document) :
    maintainedDocument now queue document = some ((visibilityUpdate now queue).apply document) := by
  rw [maintainedDocument, if_neg (mt (deletesAt_iff hstored).mp hkeeps),
    if_pos ((opensAt_iff hstored).mpr hopens)]

theorem maintainedDocument_of_not (hwaits : ¬OpensAt now queue message document) :
    maintainedDocument now queue document = some document := by
  rw [maintainedDocument, if_neg (mt (deletesAt_iff hstored).mp hkeeps),
    if_neg (mt (opensAt_iff hstored).mp hwaits)]

end

def Message.reopened (now : Time) (queue : Queue) (message : Message) : Message :=
  { message with
    status := .initial
    receiptHandle := ""
    reset := now + seconds queue.attributes.visibilityTimeout }

theorem storedAs_reopened (hstored : message.StoredAs document) :
    (message.reopened now queue).StoredAs ((visibilityUpdate now queue).apply document) :=
  ((hstored.setStatus .initial).setReceiptHandle "").setReset _

theorem deletesAt_reopened {other : Queue} :
    DeletesAt now other (message.reopened now queue) ((visibilityUpdate now queue).apply document) ↔
      DeletesAt now other message document := by
  have hcreated : ((visibilityUpdate now queue).apply document).get? "created" =
      document.get? "created" := Update.get?_apply rfl
  constructor
  · rintro ⟨hperiod, harn, hdated, hexpired⟩
    rw [hcreated] at hdated
    exact ⟨hperiod, harn, hdated, hexpired⟩
  · rintro ⟨hperiod, harn, hdated, hexpired⟩
    rw [← hcreated] at hdated
    exact ⟨hperiod, harn, hdated, hexpired⟩

variable {queues : List Queue}

variable (hstored : message.StoredAs document)
include hstored

theorem passedDocument_of_deletesAt
    (hdeletes : ∃ queue ∈ queues, DeletesAt now queue message document) :
    passedDocument now queues document = none := by
  induction queues generalizing message document with
  | nil =>
    obtain ⟨queue, hqueue, -⟩ := hdeletes
    cases hqueue
  | cons queue queues ih =>
    rw [passedDocument]
    by_cases hfirst : DeletesAt now queue message document
    · rw [maintainedDocument_of_deletesAt hstored hfirst]
      rfl
    · obtain ⟨other, hother, hlater⟩ := hdeletes
      have hrest : other ∈ queues := by
        rcases List.mem_cons.mp hother with rfl | hrest
        · exact absurd hlater hfirst
        · exact hrest
      by_cases hopens : OpensAt now queue message document
      · rw [maintainedDocument_of_opensAt hstored hfirst hopens]
        exact ih (storedAs_reopened hstored) ⟨other, hrest, deletesAt_reopened.mpr hlater⟩
      · rw [maintainedDocument_of_not hstored hfirst hopens]
        exact ih hstored ⟨other, hrest, hlater⟩

section

variable (hkeeps : ∀ queue ∈ queues, ¬DeletesAt now queue message document)
include hkeeps

theorem passedDocument_of_not (hwaits : ∀ queue ∈ queues, ¬OpensAt now queue message document) :
    passedDocument now queues document = some document := by
  induction queues with
  | nil => rfl
  | cons queue queues ih =>
    rw [passedDocument, maintainedDocument_of_not hstored (hkeeps queue List.mem_cons_self)
      (hwaits queue List.mem_cons_self)]
    exact ih (fun other hother => hkeeps other (List.mem_cons_of_mem _ hother))
      fun other hother => hwaits other (List.mem_cons_of_mem _ hother)

theorem passedDocument_of_opensAt (hopens : ∃ queue ∈ queues, OpensAt now queue message document) :
    ∃ queue ∈ queues, passedDocument now queues document =
      some ((visibilityUpdate now queue).apply document) := by
  induction queues with
  | nil =>
    obtain ⟨queue, hqueue, -⟩ := hopens
    cases hqueue
  | cons queue queues ih =>
    rw [passedDocument]
    have hkeepsFirst := hkeeps queue List.mem_cons_self
    have hkeepsRest : ∀ other ∈ queues, ¬DeletesAt now other message document :=
      fun other hother => hkeeps other (List.mem_cons_of_mem _ hother)
    by_cases hfirst : OpensAt now queue message document
    · rw [maintainedDocument_of_opensAt hstored hkeepsFirst hfirst]
      refine ⟨queue, List.mem_cons_self, ?_⟩
      apply passedDocument_of_not (storedAs_reopened hstored)
      · exact fun other hother hdeletes =>
          hkeepsRest other hother (deletesAt_reopened.mp hdeletes)
      · intro other _ hagain
        exact absurd hagain.status (by simp [Message.reopened])
    · obtain ⟨other, hother, hlater⟩ := hopens
      have hrest : other ∈ queues := by
        rcases List.mem_cons.mp hother with rfl | hrest
        · exact absurd hlater hfirst
        · exact hrest
      rw [maintainedDocument_of_not hstored hkeepsFirst hfirst]
      obtain ⟨opener, hopener, hpassed⟩ := ih hkeepsRest ⟨other, hrest, hlater⟩
      exact ⟨opener, List.mem_cons_of_mem _ hopener, hpassed⟩

end

theorem storedAs_passedDocument {left : Document}
    (hleft : passedDocument now queues document = some left) :
    ∃ last : Message, last.StoredAs left ∧ last.oid = message.oid := by
  by_cases hdeletes : ∃ queue ∈ queues, DeletesAt now queue message document
  · rw [passedDocument_of_deletesAt hstored hdeletes] at hleft
    cases hleft
  · have hkeeps : ∀ queue ∈ queues, ¬DeletesAt now queue message document :=
      fun queue hqueue hdelete => hdeletes ⟨queue, hqueue, hdelete⟩
    by_cases hopens : ∃ queue ∈ queues, OpensAt now queue message document
    · obtain ⟨queue, -, hpassed⟩ := passedDocument_of_opensAt hstored hkeeps hopens
      rw [hpassed] at hleft
      injection hleft with hleft
      subst hleft
      exact ⟨message.reopened now queue, storedAs_reopened hstored, rfl⟩
    · rw [passedDocument_of_not hstored hkeeps fun queue hqueue hopen =>
        hopens ⟨queue, hqueue, hopen⟩] at hleft
      injection hleft with hleft
      subst hleft
      exact ⟨message, hstored, rfl⟩

end Documents

section MongoRun

variable (random : RandomSource) (order : Option Value → Option Value → Bool) (fuel : Nat)
  (now : Time) (queue : Queue) (world : World MongoStore)

theorem filterMap_drop_rewrite (drop open_ : Document → Bool) (rewrite : Document → Document)
    (documents : Collection) :
    documents.filterMap (fun document =>
        if drop document then none
        else if open_ document then some (rewrite document) else some document) =
      rewriteWhere open_ rewrite (documents.filter fun document => !drop document) := by
  induction documents with
  | nil => rfl
  | cons document documents ih =>
    cases hdrop : drop document with
    | true => simp [hdrop, ih]
    | false =>
      rw [List.filterMap_cons, List.filter_cons, hdrop]
      cases hopen : open_ document <;> simp [hopen, ih]

theorem filterMap_maintainedDocument (documents : Collection) :
    documents.filterMap (maintainedDocument now queue) = rewriteWhere
        (fun document => decide (0 < queue.attributes.visibilityTimeout) &&
          (visibilityFilter now queue).accepts document)
        (visibilityUpdate now queue).apply
        (documents.filter fun document =>
          !(decide (0 < queue.attributes.messageRetentionPeriod) &&
            (retentionFilter now queue).accepts document)) :=
  filterMap_drop_rewrite _ _ _ documents

theorem run_applyRetention_mongo :
    ∃ snapshot, (Server.applyRetention (mongoRepository random order fuel) now queue).run [] world =
      .returns snapshot { world with
        store := { world.store with
          messages := world.store.messages.filter fun document =>
            !(decide (0 < queue.attributes.messageRetentionPeriod) &&
              (retentionFilter now queue).accepts document) } } ∧
      queue.SameSettings snapshot := by
  rw [Server.applyRetention]
  split
  next hperiod =>
    have hkeep : (fun document => !(decide (0 < queue.attributes.messageRetentionPeriod) &&
        (retentionFilter now queue).accepts document)) =
          fun document => !(retentionFilter now queue).accepts document := by
      funext document
      rw [decide_eq_true hperiod, Bool.true_and]
    rw [hkeep]
    exact ⟨_, rfl, rfl, rfl, rfl, rfl⟩
  next hperiod =>
    have hkeep : (world.store.messages.filter fun document =>
        !(decide (0 < queue.attributes.messageRetentionPeriod) &&
          (retentionFilter now queue).accepts document)) = world.store.messages := by
      apply List.filter_eq_self.mpr
      intro document _
      rw [decide_eq_false hperiod]
      rfl
    rw [hkeep]
    exact ⟨queue, rfl, Queue.SameSettings.refl queue⟩

theorem run_applyVisibility_mongo :
    ∃ snapshot, (Server.applyVisibility (mongoRepository random order fuel) now queue).run []
        world =
      .returns snapshot { world with
        store := { world.store with
          messages := rewriteWhere
            (fun document => decide (0 < queue.attributes.visibilityTimeout) &&
              (visibilityFilter now queue).accepts document)
            (visibilityUpdate now queue).apply world.store.messages } } ∧
      queue.SameSettings snapshot := by
  rw [Server.applyVisibility]
  split
  next hvisibility =>
    have hopen : (fun document => decide (0 < queue.attributes.visibilityTimeout) &&
        (visibilityFilter now queue).accepts document) = (visibilityFilter now queue).accepts := by
      funext document
      rw [decide_eq_true hvisibility, Bool.true_and]
    rw [hopen]
    exact ⟨_, rfl, rfl, rfl, rfl, rfl⟩
  next hvisibility =>
    rw [rewriteWhere_of_none fun document _ => by rw [decide_eq_false hvisibility]; rfl]
    exact ⟨queue, rfl, Queue.SameSettings.refl queue⟩

/-- Delays change nothing: messages have no field `arn`. -/
theorem run_applyDelay_mongo
    (hmessages : ∀ document ∈ world.store.messages, document.get? "arn" = none) :
    ∃ snapshot, (Server.applyDelay (mongoRepository random order fuel) now queue).run [] world =
      .returns snapshot world := by
  rw [Server.applyDelay]
  split
  next =>
    have hnone : ∀ document ∈ world.store.messages,
        Filter.accepts [fieldIs "arn" queue.url, fieldIs "status" MessageStatus.delayed.toString,
          (["reset"], .lt now)] document = false := by
      intro document hdocument
      rw [Filter.accepts_cons]
      simp [fieldIs, Condition.holds, hmessages document hdocument]
    have hsame : Collection.updateMany [fieldIs "arn" queue.url,
        fieldIs "status" MessageStatus.delayed.toString, (["reset"], .lt now)]
        { set := [setString "status" MessageStatus.initial.toString] } world.store.messages =
          world.store.messages := rewriteWhere_of_none hnone
    have hrun : ((mongoRepository random order fuel).resetDelayedMessages now queue.url
        queue.attributes.delaySeconds).run [] world = .returns 0 { world with
          store := { world.store with
            messages := Collection.updateMany [fieldIs "arn" queue.url,
              fieldIs "status" MessageStatus.delayed.toString, (["reset"], .lt now)]
              { set := [setString "status" MessageStatus.initial.toString] }
              world.store.messages } } := rfl
    rw [hsame] at hrun
    rw [run_bind, hrun]
    exact ⟨_, rfl⟩
  next => exact ⟨queue, rfl⟩

def Identified (collection : Collection) : Prop :=
  ∀ document ∈ collection, ∃ oid, document.get? "_id" = some (.scalar (.objectId oid))

theorem identified_findOneAndReplace (filter : Filter) (replacement : Document)
    {collection : Collection} (hidentified : Identified collection) :
    Identified (collection.findOneAndReplace filter replacement).2 ∧
      ∀ document ∈ (collection.findOneAndReplace filter replacement).1,
        ∃ oid, document = ("_id", .scalar (.objectId oid)) :: replacement := by
  constructor
  · intro document hdocument
    rcases of_mem_rewriteFirst hdocument with hold | ⟨old, hold, -, hreplaced⟩
    · exact hidentified document hold
    · obtain ⟨oid, hoid⟩ := hidentified old hold
      rw [hoid] at hreplaced
      rw [hreplaced]
      exact ⟨oid, by rw [Document.get?_cons, if_pos rfl]⟩
  · intro document hdocument
    rw [Collection.findOneAndReplace, Option.mem_def, Option.map_eq_some_iff] at hdocument
    obtain ⟨old, hfound, hreplaced⟩ := hdocument
    obtain ⟨oid, hoid⟩ := hidentified old (List.mem_of_find?_eq_some hfound)
    rw [hoid] at hreplaced
    exact ⟨oid, hreplaced.symm⟩

theorem run_updateQueue_mongo (snapshot : Queue) (hqueues : Identified world.store.queues) :
    ∃ value queues, (MongoRepository.updateQueue now snapshot).run [] world =
        .returns value { world with store := { world.store with queues } } ∧
      Identified queues := by
  obtain ⟨hafter, hfound⟩ := identified_findOneAndReplace
    [fieldIs "arn" snapshot.arn] { snapshot with modified := now }.toDocument hqueues
  simp only [MongoRepository.updateQueue, readQueues, writeQueues, run_bind, Call.run_readStore,
    Outcome.andThen_returns, Call.run_writeStore]
  cases hresult : (Collection.findOneAndReplace [fieldIs "arn" snapshot.arn]
      { snapshot with modified := now }.toDocument world.store.queues).1 with
  | none => exact ⟨_, _, rfl, hafter⟩
  | some document =>
    obtain ⟨oid, rfl⟩ := hfound document hresult
    simp only [(Queue.storedAs_toDocument { snapshot with modified := now } oid).fromDocument_eq]
    exact ⟨_, _, rfl, hafter⟩

structure Readable (store : MongoStore) : Prop where
  messages : ∀ document ∈ store.messages, ∃ message : Message, message.StoredAs document
  queues : Identified store.queues

variable {now queue} in
theorem Readable.filterMap {store : MongoStore} (hreadable : Readable store)
    {queues : Collection} (hqueues : Identified queues) :
    Readable ⟨queues, store.messages.filterMap (maintainedDocument now queue)⟩ := by
  refine ⟨fun document hdocument => ?_, hqueues⟩
  obtain ⟨source, hsource, hleft⟩ := List.mem_filterMap.mp hdocument
  obtain ⟨message, hstored⟩ := hreadable.messages source hsource
  have hpassed : passedDocument now [queue] source = some document := by
    rw [passedDocument, hleft]
    rfl
  obtain ⟨last, hlast, -⟩ := storedAs_passedDocument hstored hpassed
  exact ⟨last, hlast⟩

theorem filterMap_of_not_counted (hcount : ¬ (0 : Int) < Collection.countDocuments
      (unlessEmpty queue.arn (fieldIs "queueArn" queue.arn)) world.store.messages) :
    world.store.messages.filterMap (maintainedDocument now queue) = world.store.messages := by
  have hnone : ∀ document ∈ world.store.messages,
      Filter.accepts (unlessEmpty queue.arn (fieldIs "queueArn" queue.arn)) document = false := by
    have hzero : Collection.countDocuments (unlessEmpty queue.arn (fieldIs "queueArn" queue.arn))
        world.store.messages = 0 := by omega
    intro document hdocument
    rw [Bool.eq_false_iff]
    exact List.countP_eq_zero.mp hzero document hdocument
  rw [List.filterMap_congr (fun document hdocument => (?_ :
    maintainedDocument now queue document = some document))]
  · exact List.filterMap_some
  · have hother : (fieldIs "queueArn" queue.arn).2.holds
        (document.getPath (fieldIs "queueArn" queue.arn).1) = false := by
      have hdoc := hnone document hdocument
      by_cases hempty : queue.arn = ""
      · rw [hempty] at hdoc
        cases hdoc
      · rw [unlessEmpty, if_neg hempty, Filter.accepts_cons, Filter.accepts_nil,
          Bool.and_true] at hdoc
        exact hdoc
    have hqueue : ∀ rest : Filter,
        Filter.accepts (fieldIs "queueArn" queue.arn :: rest) document = false := by
      intro rest
      rw [Filter.accepts_cons, hother, Bool.false_and]
    rw [maintainedDocument, retentionFilter, visibilityFilter, hqueue, hqueue, Bool.and_false,
      Bool.and_false]
    rfl

theorem run_maintainQueue_mongo (hreadable : Readable world.store) :
    ∃ queues, Identified queues ∧
      (Server.maintainQueue (mongoRepository random order fuel) now queue).run [] world =
        .returns () { world with
          store := ⟨queues, world.store.messages.filterMap (maintainedDocument now queue)⟩ } := by
  have hcount : ((mongoRepository random order fuel).countMessages queue.arn "").run [] world =
      .returns (Collection.countDocuments (unlessEmpty queue.arn (fieldIs "queueArn" queue.arn))
        world.store.messages : Int) world := by
    have hrun : ((mongoRepository random order fuel).countMessages queue.arn "").run [] world =
      .returns (Collection.countDocuments (unlessEmpty queue.arn (fieldIs "queueArn" queue.arn)
        ++ []) world.store.messages : Int) world := rfl
    rw [hrun, List.append_nil]
  rw [Server.maintainQueue, run_bind, hcount, Outcome.andThen_returns]
  split
  next hpositive =>
    obtain ⟨first, hretention, hfirst⟩ :=
      run_applyRetention_mongo random order fuel now queue world
    obtain ⟨second, hvisible, -⟩ := run_applyVisibility_mongo random order fuel now first
      { world with
        store := { world.store with
          messages := world.store.messages.filter fun document =>
            !(decide (0 < queue.attributes.messageRetentionPeriod) &&
              (retentionFilter now queue).accepts document) } }
    have hopen : (fun document => decide (0 < first.attributes.visibilityTimeout) &&
        (visibilityFilter now first).accepts document) =
          fun document => decide (0 < queue.attributes.visibilityTimeout) &&
            (visibilityFilter now queue).accepts document := by
      rw [visibilityFilter, visibilityFilter, hfirst.arn, hfirst.visibilityTimeout]
    have hupdate : visibilityUpdate now first = visibilityUpdate now queue := by
      rw [visibilityUpdate, visibilityUpdate, hfirst.visibilityTimeout]
    rw [hopen, hupdate, ← filterMap_maintainedDocument] at hvisible
    have hmaintained : Readable ⟨world.store.queues,
        world.store.messages.filterMap (maintainedDocument now queue)⟩ :=
      hreadable.filterMap hreadable.queues
    obtain ⟨third, hdelayed⟩ := run_applyDelay_mongo random order fuel now second
      { world with
        store := { world.store with
          messages := world.store.messages.filterMap (maintainedDocument now queue) } }
      fun document hdocument => by
        obtain ⟨message, hstored⟩ := hmaintained.messages document hdocument
        exact hstored.arn
    obtain ⟨value, queues, hupdated, hidentified⟩ := run_updateQueue_mongo now
      { world with
        store := { world.store with
          messages := world.store.messages.filterMap (maintainedDocument now queue) } }
      third hreadable.queues
    refine ⟨queues, hidentified, ?_⟩
    have hupdate : ((mongoRepository random order fuel).updateQueue now third).run [] _ = _ :=
      hupdated
    change ((Server.applyRetention _ now queue).run [] world).andThen _ = _
    rw [hretention, Outcome.andThen_returns]
    change ((Server.applyVisibility _ now first).run [] _).andThen _ = _
    rw [hvisible, Outcome.andThen_returns]
    change ((Server.applyDelay _ now second).run [] _).andThen _ = _
    rw [hdelayed, Outcome.andThen_returns, run_bind, hupdate]
    rfl
  next hempty =>
    rw [filterMap_of_not_counted now queue world hempty]
    exact ⟨world.store.queues, hreadable.queues, rfl⟩

variable {world} in
theorem run_maintainQueues_mongo (queues : List Queue) (hreadable : Readable world.store) :
    ∃ after,
      (queues.forM (Server.maintainQueue (mongoRepository random order fuel) now)).run [] world =
        .returns () after ∧
      after.store.messages = world.store.messages.filterMap (passedDocument now queues) := by
  induction queues generalizing world with
  | nil => exact ⟨world, rfl, List.filterMap_some.symm⟩
  | cons queue queues ih =>
    obtain ⟨written, hwritten, hfirst⟩ :=
      run_maintainQueue_mongo random order fuel now queue world hreadable
    have hrest : Readable (World.store { world with
        store := ⟨written, world.store.messages.filterMap (maintainedDocument now queue)⟩ }) :=
      hreadable.filterMap hwritten
    obtain ⟨after, hlast, hmessages⟩ := ih hrest
    refine ⟨after, ?_, ?_⟩
    · rw [run_forM_cons, hfirst]
      exact hlast
    · rw [hmessages, List.filterMap_filterMap]
      rfl

variable {world} in
theorem run_listQueues_mongo {queues : List Queue}
    (hqueues : List.Forall₂ Queue.StoredAs queues world.store.queues) :
    ((mongoRepository random order fuel).listQueues "").run [] world =
      .returns (queues.map Queue.reread) world := by
  have hread : world.store.queues.mapM Queue.fromDocument = .ok (queues.map Queue.reread) := by
    generalize world.store.queues = documents at hqueues
    induction hqueues with
    | nil => rfl
    | cons hstored _ ih =>
      rw [List.mapM_cons, hstored.fromDocument_eq, ih]
      rfl
  have hall : world.store.queues.filter (Filter.accepts []) = world.store.queues :=
    List.filter_eq_self.mpr fun _ _ => rfl
  have hrun : ((mongoRepository random order fuel).listQueues "").run [] world =
      (readQueueList (world.store.queues.filter (Filter.accepts []))).run [] world := rfl
  rw [hrun, hall, readQueueList, hread, Call.run_ofExcept_ok]

/-- What one pass over MongoDB is for, on a store with these queues and messages. -/
def MongoPasses (queues : List Queue) (messages : List Message) : Prop :=
  ∃ after left, (Server.resetMessages (mongoRepository random order fuel) now).run [] world =
      .returns () after ∧
    List.Forall₂ Message.StoredAs left after.store.messages ∧
    PassesRightly now queues messages left

/-- When the MongoDB pass does what it is for: no delay has passed, every claimed
message whose time has passed has a stored date and is in a queue with a visibility
timeout, and retention deletes no message that is delayed or claimed. -/
structure MongoPassCondition (now : Time) (queues : List Queue) (documents : Collection) :
    Prop where
  delayed : ∀ document ∈ documents, ∀ message : Message, message.StoredAs document →
    message.status = .delayed → now ≤ message.reset
  invisible : ∀ document ∈ documents, ∀ message : Message, message.StoredAs document →
    message.status = .invisible → message.reset < now →
      document.get? "reset" ≠ some (.scalar .null) ∧
      ∃ queue ∈ queues, queue.arn = message.queueArn ∧ 0 < queue.attributes.visibilityTimeout
  kept : ∀ document ∈ documents, ∀ message : Message, message.StoredAs document →
    message.status = .delayed ∨ message.status = .invisible →
      ∀ queue ∈ queues, ¬DeletesAt now queue message document

variable {now} in
theorem eq_of_passedDocument {queues : List Queue} {documents : Collection}
    (hdistinct : (documents.map fun document => document.get? "_id").Nodup)
    {document source left : Document} {message other last : Message}
    (hdocument : document ∈ documents) (hstored : message.StoredAs document)
    (hsource : source ∈ documents) (hother : other.StoredAs source)
    (hleft : passedDocument now queues source = some left) (hlast : last.StoredAs left)
    (hoid : last.oid = message.oid) : source = document := by
  obtain ⟨same, hsame, hsameOid⟩ := storedAs_passedDocument hother hleft
  have hlastOid : same.oid = last.oid := by
    have hid := hsame.oid.symm.trans hlast.oid
    injection hid with hid
    injection hid with hid
    injection hid
  apply List.inj_on_of_nodup_map hdistinct hsource hdocument
  rw [hother.oid, hstored.oid, ← hsameOid, hlastOid, hoid]

theorem mem_left {left : List Message} {documents : Collection} {queues : List Queue}
    (hleft : List.Forall₂ Message.StoredAs left (documents.filterMap (passedDocument now queues)))
    {source document : Document} {last : Message} (hsource : source ∈ documents)
    (hpassed : passedDocument now queues source = some document)
    (hlast : last.StoredAs document) : last ∈ left := by
  have hdocument : document ∈ documents.filterMap (passedDocument now queues) :=
    List.mem_filterMap.mpr ⟨source, hsource, hpassed⟩
  obtain ⟨found, hfound, hstands⟩ := exists_of_forall₂_right hleft hdocument
  rw [hlast.unique hstands]
  exact hfound

variable {now world} in
theorem mongoPassCondition_of_passesRightly {queues settings : List Queue}
    {messages left : List Message} {documents : Collection}
    (hstored : List.Forall₂ Message.StoredAs messages documents)
    (hdistinct : (documents.map fun document => document.get? "_id").Nodup)
    (hleft : List.Forall₂ Message.StoredAs left (documents.filterMap (passedDocument now queues)))
    (hright : PassesRightly now settings messages left) :
    MongoPassCondition now queues documents := by
  have hmember : ∀ document ∈ documents, ∀ message : Message, message.StoredAs document →
      message ∈ messages := by
    intro document hdocument message hmessage
    obtain ⟨found, hfound, hstands⟩ := exists_of_forall₂_right hstored hdocument
    rw [hmessage.unique hstands]
    exact hfound
  -- A message that is left with the object id of a stored one comes from its document.
  have hcomes : ∀ document ∈ documents, ∀ message : Message, message.StoredAs document →
      ∀ last ∈ left, last.oid = message.oid →
        ∃ after, passedDocument now queues document = some after ∧ last.StoredAs after := by
    intro document hdocument message hmessage last hlast hoid
    obtain ⟨after, hafter, hstands⟩ := exists_of_forall₂_left hleft hlast
    obtain ⟨source, hsource, hpassed⟩ := List.mem_filterMap.mp hafter
    obtain ⟨other, -, hother⟩ := exists_of_forall₂_right hstored hsource
    have hsame := eq_of_passedDocument hdistinct hdocument hmessage hsource hother hpassed hstands
      hoid
    rw [hsame] at hpassed
    exact ⟨after, hpassed, hstands⟩
  have hkept : ∀ document ∈ documents, ∀ message : Message, message.StoredAs document →
      message.status = .delayed ∨ message.status = .invisible →
        ∀ queue ∈ queues, ¬DeletesAt now queue message document := by
    intro document hdocument message hmessage hstatus queue hqueue hdeletes
    have hgone := passedDocument_of_deletesAt hmessage ⟨queue, hqueue, hdeletes⟩
    have hmem := hmember document hdocument message hmessage
    have hstays : ∃ last ∈ left, last.oid = message.oid := by
      by_cases hreset : message.reset < now
      · obtain ⟨last, hlast, hoid, -⟩ :=
          hright.opened message hmem (isTimedOut_iff.mpr ⟨hstatus, hreset⟩)
        exact ⟨last, hlast, hoid⟩
      · exact ⟨message, hright.waiting message hmem hstatus (Int.not_lt.mp hreset), rfl⟩
    obtain ⟨last, hlast, hoid⟩ := hstays
    obtain ⟨after, hpassed, -⟩ := hcomes document hdocument message hmessage last hlast hoid
    rw [hgone] at hpassed
    cases hpassed
  -- A message whose time has passed is opened at some queue.
  have hopened : ∀ document ∈ documents, ∀ message : Message, message.StoredAs document →
      message.isTimedOut now = true → ∃ queue ∈ queues, OpensAt now queue message document := by
    intro document hdocument message hmessage htimed
    by_contra hnone
    have hstays := passedDocument_of_not hmessage
      (hkept document hdocument message hmessage (isTimedOut_iff.mp htimed).1)
      fun queue hqueue hopens => hnone ⟨queue, hqueue, hopens⟩
    obtain ⟨last, hlast, hoid, hready, -⟩ :=
      hright.opened message (hmember document hdocument message hmessage) htimed
    obtain ⟨after, hpassed, hstands⟩ := hcomes document hdocument message hmessage last hlast hoid
    rw [hstays] at hpassed
    injection hpassed with hsame
    subst hsame
    have hopen := (isTimedOut_iff.mp htimed).1
    simp only [Message.isReady, Message.hasStatus, Bool.and_eq_true, decide_eq_true_eq] at hready
    rw [hmessage.unique hstands, hready.2] at hopen
    rcases hopen with hopen | hopen <;> cases hopen
  constructor
  · intro document hdocument message hmessage hstatus
    by_contra hreset
    obtain ⟨queue, -, hopens⟩ := hopened document hdocument message hmessage
      (isTimedOut_iff.mpr ⟨Or.inl hstatus, Int.not_le.mp hreset⟩)
    have hinvisible := hopens.status
    rw [hstatus] at hinvisible
    cases hinvisible
  · intro document hdocument message hmessage hstatus hreset
    obtain ⟨queue, hqueue, hopens⟩ := hopened document hdocument message hmessage
      (isTimedOut_iff.mpr ⟨Or.inr hstatus, hreset⟩)
    exact ⟨hopens.dated, queue, hqueue, hopens.arn, hopens.timeout⟩
  · exact hkept

variable {now world} in
theorem passesRightly_of_mongoPassCondition {queues : List Queue}
    {messages left : List Message} {documents : Collection}
    (hstored : List.Forall₂ Message.StoredAs messages documents)
    (hleft : List.Forall₂ Message.StoredAs left (documents.filterMap (passedDocument now queues)))
    (hcondition : MongoPassCondition now queues documents) :
    PassesRightly now queues messages left := by
  constructor
  · intro message hmessage htimed
    obtain ⟨document, hdocument, hstands⟩ := exists_of_forall₂_left hstored hmessage
    obtain ⟨hstatus, hreset⟩ := isTimedOut_iff.mp htimed
    have hkept := hcondition.kept document hdocument message hstands hstatus
    rcases hstatus with hdelayed | hinvisible
    · exact absurd (hcondition.delayed document hdocument message hstands hdelayed)
        (Int.not_le.mpr hreset)
    · obtain ⟨hdated, queue, hqueue, harn, htimeout⟩ :=
        hcondition.invisible document hdocument message hstands hinvisible hreset
      obtain ⟨opener, -, hpassed⟩ := passedDocument_of_opensAt hstands hkept
        ⟨queue, hqueue, htimeout, harn, hinvisible, hdated, hreset⟩
      refine ⟨message.reopened now opener,
        mem_left now hleft hdocument hpassed (storedAs_reopened hstands), rfl, ?_, fun _ => rfl⟩
      simp [Message.isReady, Message.reopened, Message.isIn, Message.hasStatus]
  · intro message hmessage hstatus hreset
    obtain ⟨document, hdocument, hstands⟩ := exists_of_forall₂_left hstored hmessage
    have hkept := hcondition.kept document hdocument message hstands hstatus
    have hstays := passedDocument_of_not hstands hkept fun queue _ hopens =>
      absurd hopens.passed (Int.not_lt.mpr hreset)
    exact mem_left now hleft hdocument hstays hstands
  · intro message hmessage hstatus hfresh
    obtain ⟨document, hdocument, hstands⟩ := exists_of_forall₂_left hstored hmessage
    have hkept : ∀ queue ∈ queues, ¬DeletesAt now queue message document :=
      fun queue hqueue hdeletes =>
        absurd hdeletes.expired (Int.not_lt.mpr (hfresh queue hqueue hdeletes.arn))
    have hstays := passedDocument_of_not hstands hkept fun queue _ hopens => by
      have hinvisible := hopens.status
      rw [hstatus] at hinvisible
      cases hinvisible
    exact mem_left now hleft hdocument hstays hstands

theorem mongoPasses_iff {queues : List Queue} {messages : List Message}
    (hqueues : List.Forall₂ Queue.StoredAs queues world.store.queues)
    (hstored : List.Forall₂ Message.StoredAs messages world.store.messages)
    (hdistinct : (world.store.messages.map fun document => document.get? "_id").Nodup) :
    MongoPasses random order fuel now world (queues.map Queue.reread) messages ↔
      MongoPassCondition now (queues.map Queue.reread) world.store.messages := by
  have hreadable : Readable world.store := by
    constructor
    · intro document hdocument
      obtain ⟨message, -, hstands⟩ := exists_of_forall₂_right hstored hdocument
      exact ⟨message, hstands⟩
    · intro document hdocument
      obtain ⟨queue, -, hstands⟩ := exists_of_forall₂_right hqueues hdocument
      exact ⟨queue.oid, hstands.oid⟩
  obtain ⟨after, hrun, hmessages⟩ :=
    run_maintainQueues_mongo random order fuel now (queues.map Queue.reread) hreadable
  have hpass : (Server.resetMessages (mongoRepository random order fuel) now).run [] world =
      .returns () after := by
    rw [Server.resetMessages, run_bind, run_listQueues_mongo random order fuel hqueues]
    exact hrun
  constructor
  · rintro ⟨last, left, hlast, hleft, hright⟩
    rw [hpass] at hlast
    injection hlast with _ hsame
    subst hsame
    rw [hmessages] at hleft
    exact mongoPassCondition_of_passesRightly hstored hdistinct hleft hright
  · intro hcondition
    have hleft : ∃ left, List.Forall₂ Message.StoredAs left
        (world.store.messages.filterMap (passedDocument now (queues.map Queue.reread))) := by
      apply exists_forall₂_of_right
      intro document hdocument
      obtain ⟨source, hsource, hpassed⟩ := List.mem_filterMap.mp hdocument
      obtain ⟨message, hstands⟩ := hreadable.messages source hsource
      obtain ⟨last, hlast, -⟩ := storedAs_passedDocument hstands hpassed
      exact ⟨last, hlast⟩
    obtain ⟨left, hleft⟩ := hleft
    refine ⟨after, left, hpass, ?_, passesRightly_of_mongoPassCondition hstored hleft hcondition⟩
    rw [hmessages]
    exact hleft

end MongoRun

/-- Each repository is passed rightly under its own condition. In memory, messages
are known by their keys; in MongoDB, by their object ids. -/
theorem passesRightly_iff (random : RandomSource)
    (order : Option Value → Option Value → Bool) (fuel : Nat) (now : Time)
    (memory : World MemoryStore) (mongo : World MongoStore) (queues : List Queue)
    (messages : List Message)
    (hkeyed : ∀ entry ∈ memory.store.messages.entries, entry.2.oid = entry.1)
    (hqueues : List.Forall₂ Queue.StoredAs queues mongo.store.queues)
    (hstored : List.Forall₂ Message.StoredAs messages mongo.store.messages)
    (hdistinct : (mongo.store.messages.map fun document => document.get? "_id").Nodup) :
    (MemoryPasses random now memory ↔
      MemoryPassCondition now (memory.store.messages.values.map Message.queueArn)
        memory.store.queues.values memory.store.messages.values) ∧
    (MongoPasses random order fuel now mongo (queues.map Queue.reread) messages ↔
      MongoPassCondition now (queues.map Queue.reread) mongo.store.messages) :=
  ⟨memoryPasses_iff random now memory hkeyed,
    mongoPasses_iff random order fuel now mongo hqueues hstored hdistinct⟩

section Samples

def slowQueue : Queue := { orderQueue with attributes := { delaySeconds := 5 } }

def MemoryStore.ordered (message : Message) : MemoryStore :=
  ⟨(MemoryStore.singleQueue slowQueue).queues, (MemoryStore.single message).messages⟩

def MongoStore.ordered (message : Message) : MongoStore :=
  ⟨(MongoStore.singleQueue slowQueue).queues, (MongoStore.single message).messages⟩

def lateMessage (status : MessageStatus) : Message := { orderMessage 0 with status }

theorem storedAs_lateMessage (status : MessageStatus) :
    (lateMessage status).StoredAs
      (MongoRepository.withObjectId (lateMessage status).oid (lateMessage status).toDocument) :=
  Message.storedAs_toDocument (lateMessage status) _ (Or.inl (by decide : (0 : Time) < 1000))
    (Or.inl (by decide : (0 : Time) < 1000)) (Or.inl (by decide : (0 : Time) < 1000))

theorem keyed_ordered (message : Message) :
    ∀ entry ∈ (MemoryStore.ordered message).messages.entries, entry.2.oid = entry.1 := by
  intro entry hentry
  rw [List.mem_singleton.mp hentry]

/-- A claimed message whose time has passed becomes visible in both repositories. -/
theorem passesRightly_claimed :
    MemoryPasses RandomSource.growing 2000 ⟨.ordered (lateMessage .invisible), 0⟩ ∧
      MongoPasses RandomSource.growing (fun _ _ => true) 10 2000
        ⟨.ordered (lateMessage .invisible), 0⟩ [slowQueue.reread]
        [lateMessage .invisible] := by
  have hpasses := passesRightly_iff RandomSource.growing (fun _ _ => true) 10 2000
    ⟨.ordered (lateMessage .invisible), 0⟩ ⟨.ordered (lateMessage .invisible), 0⟩ [slowQueue]
    [lateMessage .invisible] (keyed_ordered _)
    (List.Forall₂.cons (Queue.storedAs_toDocument slowQueue slowQueue.oid) List.Forall₂.nil)
    (List.Forall₂.cons (storedAs_lateMessage .invisible) List.Forall₂.nil)
    (List.nodup_singleton _)
  constructor
  · refine hpasses.1.mpr ⟨fun message hmessage _ _ => ?_, fun message hmessage hstatus => ?_⟩
    · rw [List.mem_singleton.mp hmessage]
      exact ⟨slowQueue, List.mem_singleton.mpr rfl, rfl, by decide⟩
    · rw [List.mem_singleton.mp hmessage] at hstatus
      cases hstatus
  · refine hpasses.2.mpr ⟨fun document hdocument message hstored hstatus => ?_,
      fun document hdocument message hstored _ _ => ?_,
      fun document hdocument message hstored _ queue hqueue hdeletes => ?_⟩
    all_goals
      rw [List.mem_singleton.mp hdocument] at hstored
      have hmessage := hstored.unique (storedAs_lateMessage .invisible)
      subst hmessage
    · cases hstatus
    · rw [List.mem_singleton.mp hdocument]
      exact ⟨nofun, _, List.mem_singleton.mpr rfl, rfl, by decide⟩
    · rw [List.mem_singleton.mp hqueue] at hdeletes
      exact absurd hdeletes.expired (by decide)

/-- A message whose delay has passed: the in-memory pass never returns, and the
other leaves the message delayed. -/
theorem not_passesRightly_delayed :
    ¬MemoryPasses RandomSource.growing 2000 ⟨.ordered (lateMessage .delayed), 0⟩ ∧
      ¬MongoPasses RandomSource.growing (fun _ _ => true) 10 2000
        ⟨.ordered (lateMessage .delayed), 0⟩ [slowQueue.reread] [lateMessage .delayed] := by
  constructor
  · rw [memoryPasses_iff _ _ _ (keyed_ordered _)]
    intro hcondition
    obtain ⟨earlier, queue, later, hsplit, -, hurl, -⟩ :=
      hcondition.delayed _ (List.mem_singleton.mpr rfl) rfl (by decide)
    have hqueue : queue ∈ [slowQueue] := by
      change queue ∈ (MemoryStore.ordered (lateMessage .delayed)).queues.values
      rw [hsplit]
      simp
    rw [List.mem_singleton.mp hqueue] at hurl
    revert hurl
    decide
  · intro hpasses
    have hcondition := (mongoPasses_iff RandomSource.growing (fun _ _ => true) 10 2000
      ⟨.ordered (lateMessage .delayed), 0⟩
      (List.Forall₂.cons (Queue.storedAs_toDocument slowQueue slowQueue.oid) List.Forall₂.nil)
      (List.Forall₂.cons (storedAs_lateMessage .delayed) List.Forall₂.nil)
      (List.nodup_singleton _)).mp hpasses
    have hreset := hcondition.delayed _ (List.mem_singleton.mpr rfl) _
      (storedAs_lateMessage .delayed) rfl
    revert hreset
    decide

end Samples

end AwsMock.Sqs
