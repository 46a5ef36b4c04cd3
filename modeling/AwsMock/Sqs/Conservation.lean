import Mathlib.Data.List.Pairwise
import AwsMock.Sqs.Content

/-! # Messages that are sent are kept

Runs of producers, consumers and the periodic reset on the in-memory store,
with a ledger of what was sent, handed out and deleted. No message is lost or
duplicated. A deletion removes what was received under its handle as long as
the handle is not empty and was not given by a send: every reset and every move
to a dead-letter queue leaves the empty handle behind, and all messages that
carry it are deleted together.
-/

namespace AwsMock.Sqs

open Foundation

inductive MessageEvent where
  | sendMessage (message : Message)
  | receiveMessages (now : Time) (queueArn : String) (visibility maxResult : Int)
      (dlQueueArn : String) (maxRetries : Int)
  | resetMessages (now : Time) (queueArn : String) (visibility : Int)
  | resetDelayedMessages (now : Time) (queueArn : String) (delay : Int)
  | redriveMessages (originalQueue dlqQueue : Queue)
  | redriveMessage (originalQueue dlqQueue : Queue) (messageId : String)
  | deleteMessage (receiptHandle : String)

/-- A store, and what happened to its messages. Messages are named by object
ids; `latest` is the handle the last receive of a message returned. -/
structure Ledger where
  world : World MemoryStore
  sent : List String := []
  deleted : List String := []
  given : List String := []
  latest : String → Option String := fun _ => none

/-- The messages that are in the first store and not in the second. -/
def MemoryStore.removed (before after : MemoryStore) : List Message :=
  before.messages.values.filter fun message =>
    !decide (message.oid ∈ after.messages.values.map Message.oid)

/-- `createMessage` with the id and the handle that `sendMessage` draws. -/
def createDrawn (random : RandomSource) (message : Message) : Call Mutex MemoryStore Message := do
  let messageId := random.uuid (← Call.draw)
  let receiptHandle := random.receiptHandle (← Call.draw)
  MemoryRepository.createMessage random { message with messageId, receiptHandle }

/-- Whether a message of a receive is the one with this object id, claimed. -/
def Message.isClaimed (oid : String) (message : Message) : Bool :=
  decide (message.oid = oid) && message.hasStatus .invisible

def handOut (messageList : List Message) (latest : String → Option String) (oid : String) :
    Option String :=
  ((messageList.find? (Message.isClaimed oid)).map Message.receiptHandle).or (latest oid)

namespace Ledger

variable (random : RandomSource)

def after {α : Type} (ledger : Ledger) (call : Call Mutex MemoryStore α) : Ledger :=
  { ledger with world := (call.run [] ledger.world).after }

def afterDelete (ledger : Ledger) (receiptHandle : String) : World MemoryStore :=
  ((MemoryRepository.deleteMessage receiptHandle).run [] ledger.world).after

def record (ledger : Ledger) : MessageEvent → Ledger
  | .sendMessage message =>
    match (createDrawn random message).run [] ledger.world with
    | .returns stored world =>
      { ledger with
        world
        sent := stored.oid :: ledger.sent
        given := stored.receiptHandle :: ledger.given }
    | .halts _ world => { ledger with world }
  | .receiveMessages now queueArn visibility maxResult dlQueueArn maxRetries =>
    match (MemoryRepository.receiveMessages random now queueArn visibility maxResult dlQueueArn
        maxRetries []).run [] ledger.world with
    | .returns messageList world =>
      { ledger with world, latest := handOut messageList ledger.latest }
    | .halts _ world => { ledger with world }
  | .resetMessages now queueArn visibility =>
    ledger.after (MemoryRepository.resetMessages now queueArn visibility)
  | .resetDelayedMessages now queueArn delay =>
    ledger.after (MemoryRepository.resetDelayedMessages now queueArn delay)
  | .redriveMessages originalQueue dlqQueue =>
    ledger.after (MemoryRepository.redriveMessages originalQueue dlqQueue)
  | .redriveMessage originalQueue dlqQueue messageId =>
    ledger.after (MemoryRepository.redriveMessage originalQueue dlqQueue messageId)
  | .deleteMessage receiptHandle =>
    let removed := ledger.world.store.removed (ledger.afterDelete receiptHandle).store
    { ledger with
      world := ledger.afterDelete receiptHandle
      deleted := removed.map Message.oid ++ ledger.deleted }

/-- Between two events the queues may change, the map of messages may be
rehashed, and strings may be drawn. -/
structure Idles (before after : Ledger) : Prop where
  messages : after.world.store.messages.entries.Perm before.world.store.messages.entries
  draws : before.world.draws ≤ after.world.draws
  ledger : after = { before with world := after.world }

inductive Step : Ledger → Ledger → Prop where
  | event (before : Ledger) (event : MessageEvent) : Step before (before.record random event)
  | idle (before after : Ledger) : Idles before after → Step before after

structure IsInitial (ledger : Ledger) : Prop where
  messages : ledger.world.store.messages.entries = []
  ledger : ledger = { world := ledger.world }

def Reached (ledger : Ledger) : Prop :=
  ∃ first, IsInitial first ∧ Relation.ReflTransGen (Step random) first ledger

def queuesOf (ledger : Ledger) (oid : String) : List String :=
  (ledger.world.store.messages.values.filter fun message => message.oid = oid).map Message.queueArn

/-- Every message sent and not deleted is in one queue, once. -/
def Conserves (ledger : Ledger) : Prop :=
  ∀ oid ∈ ledger.sent, oid ∉ ledger.deleted → ∃ queueArn, ledger.queuesOf oid = [queueArn]

/-- A deletion removes at most one message, and only one whose latest receive
returned the handle. -/
def DeletesRightly (ledger : Ledger) (receiptHandle : String) : Prop :=
  (ledger.world.store.removed (ledger.afterDelete receiptHandle).store).length ≤ 1 ∧
    ∀ message ∈ ledger.world.store.removed (ledger.afterDelete receiptHandle).store,
      ledger.latest message.oid = some receiptHandle

/-- What holds of every ledger reached. Object ids and handles were drawn
before, a handle is carried by one message at most unless it is empty or was
given by a send, and stored messages carry what the ledger says. -/
structure Sound (ledger : Ledger) : Prop where
  keyed : ∀ entry ∈ ledger.world.store.messages.entries, entry.2.oid = entry.1
  drawn : ∀ message ∈ ledger.world.store.messages.values,
    ∃ draw < ledger.world.draws, message.oid = random.uuid draw
  kept : ∀ oid ∈ ledger.sent, oid ∉ ledger.deleted →
    oid ∈ ledger.world.store.messages.values.map Message.oid
  handles : ∀ message ∈ ledger.world.store.messages.values,
    message.receiptHandle = "" ∨ message.receiptHandle ∈ ledger.given ∨
      ledger.latest message.oid = some message.receiptHandle
  given_drawn : ∀ handle ∈ ledger.given,
    ∃ draw < ledger.world.draws, handle = random.receiptHandle draw
  latest_drawn : ∀ oid handle, ledger.latest oid = some handle →
    ∃ draw < ledger.world.draws, handle = random.receiptHandle draw
  latest_new : ∀ oid handle, ledger.latest oid = some handle → handle ∉ ledger.given
  latest_unique : ∀ first second handle, ledger.latest first = some handle →
    ledger.latest second = some handle → first = second

end Ledger

theorem filter_eq_singleton {messages : List Message}
    (hnodup : (messages.map Message.oid).Nodup) {message : Message} (hmessage : message ∈ messages) :
    (messages.filter fun other => other.oid = message.oid) = [message] := by
  induction messages with
  | nil => cases hmessage
  | cons head rest ih =>
    rw [List.map_cons, List.nodup_cons] at hnodup
    rcases List.mem_cons.mp hmessage with rfl | hrest
    · have hnone : (rest.filter fun other => other.oid = message.oid) = [] := by
        refine List.filter_eq_nil_iff.mpr fun other hother => ?_
        intro heq
        exact hnodup.1 (List.mem_map.mpr ⟨other, hother, of_decide_eq_true heq⟩)
      rw [List.filter_cons, if_pos (decide_eq_true rfl), hnone]
    · have hne : head.oid ≠ message.oid := fun heq =>
        hnodup.1 (List.mem_map.mpr ⟨message, hrest, heq.symm⟩)
      rw [List.filter_cons, decide_eq_false hne]
      exact ih hnodup.2 hrest

namespace Ledger

variable {random : RandomSource} {ledger : Ledger}

namespace Sound

variable (hsound : Sound random ledger)
include hsound

theorem fresh_oid {draw : Nat} (hdraw : ledger.world.draws ≤ draw) :
    random.uuid draw ∉ ledger.world.store.messages.values.map Message.oid := by
  intro hmem
  obtain ⟨message, hmessage, hoid⟩ := List.mem_map.mp hmem
  obtain ⟨old, hold, hdrawn⟩ := hsound.drawn message hmessage
  have heq : old = draw := random.uuid_injective (hdrawn.symm.trans hoid)
  omega

theorem fresh_handle {draw : Nat} (hdraw : ledger.world.draws ≤ draw) :
    random.receiptHandle draw ∉ ledger.given := by
  intro hmem
  obtain ⟨old, hold, hdrawn⟩ := hsound.given_drawn _ hmem
  have heq : draw = old := random.receiptHandle_injective hdrawn
  omega

theorem fresh_latest {draw : Nat} {oid : String} (hdraw : ledger.world.draws ≤ draw) :
    ledger.latest oid ≠ some (random.receiptHandle draw) := by
  intro hlatest
  obtain ⟨old, hold, hdrawn⟩ := hsound.latest_drawn oid _ hlatest
  have heq : draw = old := random.receiptHandle_injective hdrawn
  omega

theorem latest_ne_empty {oid handle : String}
    (hlatest : ledger.latest oid = some handle) : handle ≠ "" := by
  obtain ⟨draw, -, rfl⟩ := hsound.latest_drawn oid handle hlatest
  exact random.receiptHandle_ne_empty draw

end Sound

theorem Sound.idle {before after : Ledger} (hsound : Sound random before)
    (hidle : Idles before after) : Sound random after := by
  obtain ⟨hmessages, hdraws, hledger⟩ := hidle
  have hvalues : after.world.store.messages.values.Perm before.world.store.messages.values :=
    hmessages.map Prod.snd
  have hearlier : ∀ {condition : Nat → Prop}, (∃ draw < before.world.draws, condition draw) →
      ∃ draw < after.world.draws, condition draw := by
    rintro condition ⟨draw, hdraw, hcondition⟩
    exact ⟨draw, Nat.lt_of_lt_of_le hdraw hdraws, hcondition⟩
  rw [hledger]
  constructor
  · exact fun entry hentry => hsound.keyed entry (hmessages.mem_iff.mp hentry)
  · exact fun message hmessage => hearlier (hsound.drawn message (hvalues.mem_iff.mp hmessage))
  · intro oid hsent hdeleted
    exact (hvalues.map Message.oid).mem_iff.mpr (hsound.kept oid hsent hdeleted)
  · exact fun message hmessage => hsound.handles message (hvalues.mem_iff.mp hmessage)
  · exact fun handle hgiven => hearlier (hsound.given_drawn handle hgiven)
  · exact fun oid handle hlatest => hearlier (hsound.latest_drawn oid handle hlatest)
  · exact hsound.latest_new
  · exact hsound.latest_unique

theorem Sound.rewrite (hsound : Sound random ledger) {select : Message → Bool}
    {rewrite : Message → Message} (hoid : ∀ message, (rewrite message).oid = message.oid)
    (hhandle : ∀ message, (rewrite message).receiptHandle = "" ∨
      (rewrite message).receiptHandle = message.receiptHandle) :
    Sound random (ledger.after (MemoryRepository.rewriteMessages select rewrite)) := by
  have hworld : (ledger.after (MemoryRepository.rewriteMessages select rewrite)).world =
      { ledger.world with
        store := { ledger.world.store with
          messages := ledger.world.store.messages.rewriteIf select rewrite } } := by
    rw [after, MemoryRepository.run_rewriteMessages]
    rfl
  have hvalue : ∀ message,
      (if select message then rewrite message else message).oid = message.oid := by
    intro message
    split
    · exact hoid message
    · rfl
  have hvalues : ∀ message ∈ (ledger.world.store.messages.rewriteIf select rewrite).values,
      ∃ old ∈ ledger.world.store.messages.values, message.oid = old.oid ∧
        (message.receiptHandle = "" ∨ message.receiptHandle = old.receiptHandle) := by
    intro message hmessage
    rw [UnorderedMap.values_rewriteIf, mem_rewriteWhere] at hmessage
    obtain ⟨old, hold, rfl⟩ := hmessage
    refine ⟨old, hold, hvalue old, ?_⟩
    split
    · exact hhandle old
    · exact Or.inr rfl
  constructor
  · rw [hworld]
    exact keyed_rewriteIf hsound.keyed hoid
  · rw [hworld]
    intro message hmessage
    obtain ⟨old, hold, hsame, -⟩ := hvalues message hmessage
    rw [hsame]
    exact hsound.drawn old hold
  · rw [hworld]
    intro oid hsent hdeleted
    rw [UnorderedMap.values_rewriteIf, map_rewriteWhere_of_preserved _ fun old _ _ => hoid old]
    exact hsound.kept oid hsent hdeleted
  · rw [hworld]
    intro message hmessage
    obtain ⟨old, hold, hsame, hempty | hkept⟩ := hvalues message hmessage
    · exact Or.inl hempty
    · rw [hsame, hkept]
      exact hsound.handles old hold
  · rw [hworld]
    exact hsound.given_drawn
  · rw [hworld]
    exact hsound.latest_drawn
  · exact hsound.latest_new
  · exact hsound.latest_unique

theorem mem_removed {before after : MemoryStore} {message : Message} :
    message ∈ before.removed after ↔ message ∈ before.messages.values ∧
        message.oid ∉ after.messages.values.map Message.oid := by
  rw [MemoryStore.removed, List.mem_filter, Bool.not_eq_true', decide_eq_false_iff_not]

theorem afterDelete_eq (receiptHandle : String) :
    ledger.afterDelete receiptHandle =
      { ledger.world with
        store := { ledger.world.store with
          messages := ledger.world.store.messages.eraseIf (Message.carries receiptHandle) } } := by
  rw [afterDelete, MemoryRepository.run_deleteMessage]
  rfl

theorem Sound.delete (hsound : Sound random ledger) (receiptHandle : String) :
    Sound random (ledger.record random (.deleteMessage receiptHandle)) := by
  have hworld : (ledger.record random (.deleteMessage receiptHandle)).world =
      ledger.afterDelete receiptHandle := rfl
  have hmem : ∀ message ∈ (ledger.afterDelete receiptHandle).store.messages.values,
      message ∈ ledger.world.store.messages.values := by
    intro message hmessage
    rw [afterDelete_eq, UnorderedMap.values_eraseIf] at hmessage
    exact List.mem_of_mem_filter hmessage
  have hdraws : (ledger.afterDelete receiptHandle).draws = ledger.world.draws := by
    rw [afterDelete_eq]
  constructor
  · rw [hworld, afterDelete_eq]
    exact fun entry hentry => hsound.keyed entry (List.mem_of_mem_filter hentry)
  · rw [hworld, hdraws]
    exact fun message hmessage => hsound.drawn message (hmem message hmessage)
  · intro oid hsent hdeleted
    -- What is in the store and not recorded as removed is still there.
    obtain ⟨hremoved, hdeleted⟩ := not_or.mp (mt List.mem_append.mpr hdeleted)
    obtain ⟨message, hmessage, rfl⟩ := List.mem_map.mp (hsound.kept oid hsent hdeleted)
    by_contra hgone
    exact hremoved (List.mem_map_of_mem (mem_removed.mpr ⟨hmessage, hgone⟩))
  · exact fun message hmessage => hsound.handles message (hmem message hmessage)
  · rw [hworld, hdraws]
    exact hsound.given_drawn
  · rw [hworld, hdraws]
    exact hsound.latest_drawn
  · exact hsound.latest_new
  · exact hsound.latest_unique

def sentMessage (random : RandomSource) (draws : Nat) (message : Message) : Message :=
  { message with
    messageId := random.uuid draws
    receiptHandle := random.receiptHandle (draws + 1)
    oid := random.uuid (draws + 2) }

theorem record_sendMessage (message : Message) :
    ledger.record random (.sendMessage message) =
      { ledger with
        world := ⟨{ ledger.world.store with
            messages := ledger.world.store.messages.assign (random.uuid (ledger.world.draws + 2))
              (sentMessage random ledger.world.draws message) },
          ledger.world.draws + 3⟩
        sent := random.uuid (ledger.world.draws + 2) :: ledger.sent
        given := random.receiptHandle (ledger.world.draws + 1) :: ledger.given } := rfl

theorem Sound.send (hsound : Sound random ledger) (message : Message) :
    Sound random (ledger.record random (.sendMessage message)) := by
  have hkey : random.uuid (ledger.world.draws + 2) ∉
      ledger.world.store.messages.entries.map Prod.fst := by
    intro hmem
    apply hsound.fresh_oid (Nat.le_add_right ledger.world.draws 2)
    obtain ⟨entry, hentry, hkey⟩ := List.mem_map.mp hmem
    exact List.mem_map.mpr ⟨entry.2, List.mem_map_of_mem hentry,
      (hsound.keyed entry hentry).trans hkey⟩
  have hentries : (ledger.record random (.sendMessage message)).world.store.messages.entries =
      ledger.world.store.messages.entries ++
        [(random.uuid (ledger.world.draws + 2), sentMessage random ledger.world.draws message)] :=
    UnorderedMap.assignEntries_of_notMem hkey
  have hvalues : (ledger.record random (.sendMessage message)).world.store.messages.values =
      ledger.world.store.messages.values ++ [sentMessage random ledger.world.draws message] := by
    rw [UnorderedMap.values, hentries, List.map_append]
    rfl
  have hearlier : ∀ {condition : Nat → Prop}, (∃ draw < ledger.world.draws, condition draw) →
      ∃ draw < ledger.world.draws + 3, condition draw := by
    rintro condition ⟨draw, hdraw, hcondition⟩
    exact ⟨draw, Nat.lt_add_right 3 hdraw, hcondition⟩
  constructor
  · rw [hentries]
    intro entry hentry
    rcases List.mem_append.mp hentry with hold | hnew
    · exact hsound.keyed entry hold
    · rw [List.mem_singleton.mp hnew]
      rfl
  · rw [hvalues]
    intro other hother
    rcases List.mem_append.mp hother with hold | hnew
    · exact hearlier (hsound.drawn other hold)
    · rw [List.mem_singleton.mp hnew]
      exact ⟨ledger.world.draws + 2, Nat.lt_succ_self _, rfl⟩
  · rw [hvalues, List.map_append]
    intro oid hsent hdeleted
    rcases List.mem_cons.mp hsent with rfl | hold
    · exact List.mem_append_right _ List.mem_cons_self
    · exact List.mem_append_left _ (hsound.kept oid hold hdeleted)
  · rw [hvalues]
    intro other hother
    rcases List.mem_append.mp hother with hold | hnew
    · exact (hsound.handles other hold).imp_right (Or.imp_left (List.mem_cons_of_mem _))
    · rw [List.mem_singleton.mp hnew]
      exact Or.inr (Or.inl List.mem_cons_self)
  · intro handle hgiven
    rcases List.mem_cons.mp hgiven with rfl | hold
    · have hdraw : ledger.world.draws + 1 < ledger.world.draws + 3 := by omega
      exact ⟨ledger.world.draws + 1, hdraw, rfl⟩
    · exact hearlier (hsound.given_drawn handle hold)
  · exact fun oid handle hlatest => hearlier (hsound.latest_drawn oid handle hlatest)
  · intro oid handle hlatest hgiven
    rcases List.mem_cons.mp hgiven with rfl | hold
    · exact hsound.fresh_latest (Nat.le_add_right _ 1) hlatest
    · exact hsound.latest_new oid handle hlatest hold
  · exact hsound.latest_unique

section HandOut

variable {messageList : List Message} {latest : String → Option String} {oid handle : String}

theorem of_handOut (hhandle : handOut messageList latest oid = some handle) :
    (∃ message ∈ messageList, message.isClaimed oid = true ∧ message.receiptHandle = handle) ∨
      latest oid = some handle := by
  rw [handOut] at hhandle
  cases hfind : messageList.find? (Message.isClaimed oid) with
  | none =>
    rw [hfind] at hhandle
    exact Or.inr hhandle
  | some message =>
    rw [hfind] at hhandle
    injection hhandle with hhandle
    exact Or.inl ⟨message, List.mem_of_find?_eq_some hfind, List.find?_some hfind, hhandle⟩

theorem isClaimed_iff {message : Message} :
    message.isClaimed oid = true ↔ message.oid = oid ∧ message.status = .invisible := by
  rw [Message.isClaimed, Bool.and_eq_true, decide_eq_true_eq, Message.hasStatus, decide_eq_true_eq]

end HandOut

theorem claimed_or_empty {reset : Time} {dlQueueArn : String} {maxRetries : Int}
    {messages after handed : List Message} {draws drawsAfter : Nat}
    (hhands : HandsOut random reset dlQueueArn maxRetries messages draws after drawsAfter handed)
    {message : Message} (hmessage : message ∈ handed) :
    (message.status = .invisible ∧ ∃ draw, draws ≤ draw ∧ draw < drawsAfter ∧
      message.receiptHandle = random.receiptHandle draw) ∨
    message.status ≠ .invisible ∧ message.receiptHandle = "" := by
  obtain ⟨old, -, draw, hdraw, hbound, rfl⟩ := hhands.taken message hmessage
  cases hdead : isDead dlQueueArn maxRetries (old.retries + 1) with
  | false =>
    rw [taken_of_alive hdead]
    exact Or.inl ⟨rfl, draw, hdraw, hbound hdead, rfl⟩
  | true =>
    rw [taken_of_dead hdead]
    exact Or.inr ⟨nofun, rfl⟩

theorem Sound.handOut (hsound : Sound random ledger) {after : World MemoryStore} {reset : Time}
    {dlQueueArn : String} {maxRetries : Int} {handed : List Message}
    (hkeyed : ∀ entry ∈ after.store.messages.entries, entry.2.oid = entry.1)
    (hoids : after.store.messages.values.map Message.oid =
      ledger.world.store.messages.values.map Message.oid)
    (hdraws : ledger.world.draws ≤ after.draws)
    (hhands : HandsOut random reset dlQueueArn maxRetries ledger.world.store.messages.values
      ledger.world.draws after.store.messages.values after.draws handed) :
    Sound random { ledger with world := after, latest := handOut handed ledger.latest } := by
  have hearlier : ∀ {condition : Nat → Prop}, (∃ draw < ledger.world.draws, condition draw) →
      ∃ draw < after.draws, condition draw := by
    rintro condition ⟨draw, hdraw, hcondition⟩
    exact ⟨draw, Nat.lt_of_lt_of_le hdraw hdraws, hcondition⟩
  have hclaimed : ∀ message ∈ handed, ∀ oid, message.isClaimed oid = true →
      ∃ draw, ledger.world.draws ≤ draw ∧ draw < after.draws ∧
        message.receiptHandle = random.receiptHandle draw := by
    intro message hmessage oid hclaim
    rcases claimed_or_empty hhands hmessage with ⟨-, hdrawn⟩ | ⟨hopen, -⟩
    · exact hdrawn
    · exact absurd (isClaimed_iff.mp hclaim).2 hopen
  constructor
  · exact hkeyed
  · intro message hmessage
    have hold : message.oid ∈ ledger.world.store.messages.values.map Message.oid := by
      rw [← hoids]
      exact List.mem_map_of_mem hmessage
    obtain ⟨old, hold, hsame⟩ := List.mem_map.mp hold
    rw [← hsame]
    exact hearlier (hsound.drawn old hold)
  · intro oid hsent hdeleted
    change oid ∈ after.store.messages.values.map Message.oid
    rw [hoids]
    exact hsound.kept oid hsent hdeleted
  · intro message hmessage
    change message.receiptHandle = "" ∨ message.receiptHandle ∈ ledger.given ∨
      AwsMock.Sqs.handOut handed ledger.latest message.oid = some message.receiptHandle
    rw [AwsMock.Sqs.handOut]
    cases hfind : handed.find? (Message.isClaimed message.oid) with
    | some found =>
      -- The message handed out under this object id is the stored one.
      have hfound : found ∈ handed := List.mem_of_find?_eq_some hfind
      have hoid : found.oid = message.oid := (isClaimed_iff.mp (List.find?_some hfind)).1
      rw [eq_of_oid_eq hkeyed (hhands.stored found hfound) hmessage hoid]
      exact Or.inr (Or.inr rfl)
    | none =>
      rcases hhands.kept message hmessage with hold | hhanded
      · exact hsound.handles message hold
      · rcases claimed_or_empty hhands hhanded with ⟨hstatus, -⟩ | ⟨-, hempty⟩
        · exact absurd (isClaimed_iff.mpr ⟨rfl, hstatus⟩)
            (List.find?_eq_none.mp hfind message hhanded)
        · exact Or.inl hempty
  · exact fun handle hgiven => hearlier (hsound.given_drawn handle hgiven)
  · intro oid handle hlatest
    rcases of_handOut hlatest with ⟨message, hmessage, hclaim, rfl⟩ | hold
    · obtain ⟨draw, -, hdraw, hhandle⟩ := hclaimed message hmessage oid hclaim
      exact ⟨draw, hdraw, hhandle⟩
    · exact hearlier (hsound.latest_drawn oid handle hold)
  · intro oid handle hlatest
    rcases of_handOut hlatest with ⟨message, hmessage, hclaim, rfl⟩ | hold
    · obtain ⟨draw, hdraw, -, hhandle⟩ := hclaimed message hmessage oid hclaim
      rw [hhandle]
      exact hsound.fresh_handle hdraw
    · exact hsound.latest_new oid handle hold
  · intro first second handle hfirst hsecond
    have hnew : ∀ message ∈ handed, ∀ oid other, message.isClaimed oid = true →
        ledger.latest other ≠ some message.receiptHandle := by
      intro message hmessage oid other hclaim
      obtain ⟨draw, hdraw, -, hhandle⟩ := hclaimed message hmessage oid hclaim
      rw [hhandle]
      exact hsound.fresh_latest hdraw
    rcases of_handOut hfirst with ⟨left, hleft, hclaimLeft, rfl⟩ | holdFirst
    · rcases of_handOut hsecond with ⟨right, hright, hclaimRight, hsame⟩ | holdSecond
      · rw [isClaimed_iff] at hclaimLeft hclaimRight
        by_contra hne
        have hdistinct : left ≠ right := by
          rintro rfl
          exact hne (hclaimLeft.1.symm.trans hclaimRight.1)
        exact hhands.distinct.forall hleft hright hdistinct hclaimLeft.2 hclaimRight.2 hsame.symm
      · exact absurd holdSecond (hnew left hleft first second hclaimLeft)
    · rcases of_handOut hsecond with ⟨right, hright, hclaimRight, rfl⟩ | holdSecond
      · exact absurd holdFirst (hnew right hright second first hclaimRight)
      · exact hsound.latest_unique first second handle holdFirst holdSecond

theorem Sound.receive (hsound : Sound random ledger) (now : Time) (queueArn : String)
    (visibility maxResult : Int) (dlQueueArn : String) (maxRetries : Int) :
    Sound random (ledger.record random
      (.receiveMessages now queueArn visibility maxResult dlQueueArn maxRetries)) := by
  obtain ⟨handed, hlist, hhands⟩ := handsOut_walk random queueArn (now + seconds visibility)
    maxResult dlQueueArn maxRetries ledger.world.draws [] ledger.world.store.messages.values
  rw [List.nil_append] at hlist
  rw [← values_receivedStore] at hhands
  rw [record, run_receiveMessages_memory List.not_mem_nil]
  simp only [hlist]
  refine hsound.handOut (keyed_receivedStore hsound.keyed) ?_ (le_walk_draws _) hhands
  rw [values_receivedStore]
  exact oids_walk _

theorem Sound.record (hsound : Sound random ledger) (event : MessageEvent) :
    Sound random (ledger.record random event) := by
  cases event with
  | sendMessage message => exact hsound.send message
  | receiveMessages now queueArn visibility maxResult dlQueueArn maxRetries =>
    exact hsound.receive now queueArn visibility maxResult dlQueueArn maxRetries
  | resetMessages now queueArn visibility =>
    exact hsound.rewrite (fun _ => rfl) fun _ => Or.inl rfl
  | resetDelayedMessages now queueArn delay =>
    exact hsound.rewrite (fun _ => rfl) fun _ => Or.inr rfl
  | redriveMessages originalQueue dlqQueue =>
    exact hsound.rewrite (fun _ => rfl) fun _ => Or.inr rfl
  | redriveMessage originalQueue dlqQueue messageId =>
    exact hsound.rewrite (fun _ => rfl) fun _ => Or.inr rfl
  | deleteMessage receiptHandle => exact hsound.delete receiptHandle

theorem sound_of_isInitial (hinitial : IsInitial ledger) : Sound random ledger := by
  have hvalues : ledger.world.store.messages.values = [] := by
    rw [UnorderedMap.values, hinitial.messages]
    rfl
  have hsent : ledger.sent = [] := by rw [hinitial.ledger]
  have hgiven : ledger.given = [] := by rw [hinitial.ledger]
  have hlatest : ∀ oid, ledger.latest oid = none := by
    intro oid
    rw [hinitial.ledger]
  constructor <;> simp [hinitial.messages, hvalues, hsent, hgiven, hlatest]

theorem Reached.sound (hreached : Reached random ledger) : Sound random ledger := by
  obtain ⟨first, hfirst, hrun⟩ := hreached
  refine of_reflTransGen ?_ hrun (sound_of_isInitial hfirst)
  intro before after hstep hbefore
  cases hstep with
  | event event => exact hbefore.record event
  | idle _ hidle => exact hbefore.idle hidle

theorem Sound.conserves (hsound : Sound random ledger) : ledger.Conserves := by
  intro oid hsent hdeleted
  obtain ⟨message, hmessage, rfl⟩ := List.mem_map.mp (hsound.kept oid hsent hdeleted)
  refine ⟨message.queueArn, ?_⟩
  rw [queuesOf, filter_eq_singleton (nodup_oids hsound.keyed) hmessage]
  rfl

theorem Sound.mem_removed_iff (hsound : Sound random ledger) {receiptHandle : String}
    {message : Message} :
    message ∈ ledger.world.store.removed (ledger.afterDelete receiptHandle).store ↔
      message ∈ ledger.world.store.messages.values ∧ message.receiptHandle = receiptHandle := by
  rw [mem_removed, afterDelete_eq, UnorderedMap.values_eraseIf]
  refine and_congr_right fun hmessage => ?_
  rw [List.mem_map, not_exists]
  constructor
  · intro hgone
    by_contra hother
    refine hgone message ⟨List.mem_filter.mpr ⟨hmessage, ?_⟩, rfl⟩
    rw [Message.carries, decide_eq_false hother]
    rfl
  · rintro hcarries other ⟨hother, hoid⟩
    obtain ⟨hstored, hkept⟩ := List.mem_filter.mp hother
    rw [eq_of_oid_eq hsound.keyed hstored hmessage hoid, Message.carries,
      decide_eq_true hcarries] at hkept
    cases hkept

theorem Sound.deletesRightly_iff (hsound : Sound random ledger) (receiptHandle : String) :
    ledger.DeletesRightly receiptHandle ↔
      ∀ message ∈ ledger.world.store.messages.values, message.receiptHandle = receiptHandle →
        receiptHandle ≠ "" ∧ receiptHandle ∉ ledger.given := by
  constructor
  · rintro ⟨-, hlatest⟩ message hmessage hcarries
    have hreceived := hlatest message (hsound.mem_removed_iff.mpr ⟨hmessage, hcarries⟩)
    exact ⟨hsound.latest_ne_empty hreceived, hsound.latest_new _ _ hreceived⟩
  · intro hcondition
    have hlatest : ∀ message ∈ ledger.world.store.removed (ledger.afterDelete receiptHandle).store,
        ledger.latest message.oid = some receiptHandle := by
      intro message hremoved
      obtain ⟨hmessage, hcarries⟩ := hsound.mem_removed_iff.mp hremoved
      obtain ⟨hempty, hgiven⟩ := hcondition message hmessage hcarries
      rcases hsound.handles message hmessage with hbare | hsent | hreceived
      · exact absurd (hcarries.symm.trans hbare) hempty
      · exact absurd (hcarries ▸ hsent) hgiven
      · exact hreceived.trans (congrArg some hcarries)
    have hnodup : ((ledger.world.store.removed (ledger.afterDelete receiptHandle).store).map
        Message.oid).Nodup :=
      (nodup_oids hsound.keyed).sublist (List.filter_sublist.map Message.oid)
    refine ⟨?_, hlatest⟩
    match hremoved : ledger.world.store.removed (ledger.afterDelete receiptHandle).store with
    | [] => exact Nat.zero_le 1
    | [_] => exact Nat.le_refl 1
    | first :: second :: rest =>
      -- Two messages received under one handle would have one object id.
      rw [hremoved] at hlatest hnodup
      have hoid : first.oid = second.oid :=
        hsound.latest_unique first.oid second.oid receiptHandle
          (hlatest first List.mem_cons_self)
          (hlatest second (List.mem_cons_of_mem _ List.mem_cons_self))
      simp [hoid] at hnodup

section Calls

variable {context : Context} {queue : Queue} {message : Message} {stored : World MemoryStore}

theorem reflTransGen_of_run_storeMessage {now : Time} {queueArn : String}
    {request : Dto.SendMessageRequest}
    (hrun : (Service.storeMessage context (memoryRepository context.random) now queueArn
      request).run [] ledger.world = .returns (queue, message) stored) :
    ∃ after, Relation.ReflTransGen (Step context.random) ledger after ∧ after.world = stored ∧
      after.sent = message.oid :: ledger.sent ∧
      after.given = message.receiptHandle :: ledger.given := by
  obtain ⟨found, middle, entity, world, hfound, -, hupdated, hcreated⟩ :=
    exists_of_run_storeMessage hrun
  have hignores : MemoryRepository.IgnoresQueues fun other : World MemoryStore =>
      other.store.messages = ledger.world.store.messages ∧ other.draws = ledger.world.draws :=
    fun _ _ => id
  have hmiddle := Action.Satisfies.of_returns (hignores.keeps_getQueueBy now _) ⟨rfl, rfl⟩ hfound
  obtain ⟨hmessages, hdraws⟩ :=
    Action.Satisfies.of_returns (hignores.keeps_updateQueue now _) hmiddle hupdated
  have hidle : Step context.random ledger { ledger with world } := by
    refine Step.idle _ _ ⟨?_, Nat.le_of_eq hdraws.symm, rfl⟩
    rw [hmessages]
  rw [memoryRepository, MemoryRepository.run_createMessage] at hcreated
  injection hcreated with hmessage hstored
  subst hmessage hstored
  refine ⟨_, (Relation.ReflTransGen.single hidle).tail (Step.event _ (.sendMessage
    (Service.finishedMessage context now queue request (context.random.uuid world.draws)
      (context.random.receiptHandle (world.draws + 1))
      (Service.scheduledMessage now found request entity)))), ?_, ?_, ?_⟩ <;> rfl

theorem after_run_deleteMessage (random : RandomSource) (request : Dto.DeleteMessageRequest) :
    ((Service.deleteMessage (memoryRepository random) request).run [] ledger.world).after =
      ledger.afterDelete request.receiptHandle := by
  rw [Service.deleteMessage, Service.translated, Action.after_run_rethrow, afterDelete_eq]
  rfl

theorem Step.mem_sent {before after : Ledger} {oid : String} (hstep : Step random before after)
    (hsent : oid ∈ before.sent) : oid ∈ after.sent := by
  cases hstep with
  | event event =>
    cases event with
    | sendMessage message => exact List.mem_cons_of_mem _ hsent
    | receiveMessages now queueArn visibility maxResult dlQueueArn maxRetries =>
      rw [record]
      split <;> exact hsent
    | _ => exact hsent
  | idle _ hidles =>
    rw [hidles.ledger]
    exact hsent

/-- What the service has sent is in one queue, once, until it is deleted. -/
theorem conserves_stored_message {now : Time} {queueArn : String}
    {request : Dto.SendMessageRequest} (hreached : Reached context.random ledger)
    (hrun : (Service.storeMessage context (memoryRepository context.random) now queueArn
      request).run [] ledger.world = .returns (queue, message) stored) :
    ∃ after, after.world = stored ∧ Relation.ReflTransGen (Step context.random) ledger after ∧
      ∀ later, Relation.ReflTransGen (Step context.random) after later →
        message.oid ∉ later.deleted → ∃ queueArn, later.queuesOf message.oid = [queueArn] := by
  obtain ⟨after, hsteps, hworld, hsent, -⟩ := reflTransGen_of_run_storeMessage hrun
  refine ⟨after, hworld, hsteps, fun later hlater hkept => ?_⟩
  obtain ⟨first, hfirst, hbefore⟩ := hreached
  have hlast : Reached context.random later := ⟨first, hfirst, (hbefore.trans hsteps).trans hlater⟩
  refine hlast.sound.conserves _ ?_ hkept
  clear hlast hkept
  induction hlater with
  | refl =>
    rw [hsent]
    exact List.mem_cons_self
  | tail _ hstep ih => exact hstep.mem_sent ih

theorem conserves_stored_message_hello :
    ∃ queue message stored after, (Service.storeMessage sampleContext
        (memoryRepository RandomSource.growing) 1000 orderQueue.arn helloRequest).run []
        ⟨.singleQueue orderQueue, 0⟩ = .returns (queue, message) stored ∧ after.world = stored ∧
      ∀ later, Relation.ReflTransGen (Step RandomSource.growing) after later →
        message.oid ∉ later.deleted → ∃ queueArn, later.queuesOf message.oid = [queueArn] := by
  have hreached : Reached sampleContext.random { world := ⟨.singleQueue orderQueue, 0⟩ } :=
    ⟨_, ⟨rfl, rfl⟩, Relation.ReflTransGen.refl⟩
  obtain ⟨after, hworld, -, hlater⟩ := @conserves_stored_message _ _ _ _ _ 1000 orderQueue.arn
    helloRequest hreached rfl
  exact ⟨_, _, _, after, rfl, hworld, hlater⟩

end Calls

section Samples

def timedOut : Ledger :=
  [.sendMessage (orderMessage 0), .sendMessage (orderMessage 0),
    .receiveMessages 1000 (orderMessage 0).queueArn 30 10 "" (-1),
    .resetMessages 50000 (orderMessage 0).queueArn 30].foldl
      (Ledger.record RandomSource.growing) { world := ⟨.empty, 0⟩ }

theorem reached_foldl {random : RandomSource} (events : List MessageEvent) {ledger : Ledger}
    (hreached : Reached random ledger) : Reached random (events.foldl (Ledger.record random) ledger) := by
  induction events generalizing ledger with
  | nil => exact hreached
  | cons event events ih =>
    obtain ⟨first, hfirst, hrun⟩ := hreached
    exact ih ⟨first, hfirst, hrun.tail (Step.event ledger event)⟩

theorem reached_empty {random : RandomSource} : Reached random { world := ⟨.empty, 0⟩ } :=
  ⟨_, ⟨rfl, rfl⟩, Relation.ReflTransGen.refl⟩

/-- In every run, no message that was sent and not deleted is lost or doubled,
and a deletion removes at most the message received under its handle, exactly
when no message carries the handle, or it is neither empty nor given by a send. -/
theorem conserves_and_deletesRightly_iff (random : RandomSource) (ledger : Ledger)
    (hreached : Reached random ledger) :
    ledger.Conserves ∧ ∀ receiptHandle, ledger.DeletesRightly receiptHandle ↔
      ∀ message ∈ ledger.world.store.messages.values, message.receiptHandle = receiptHandle →
        receiptHandle ≠ "" ∧ receiptHandle ∉ ledger.given :=
  ⟨hreached.sound.conserves, hreached.sound.deletesRightly_iff⟩

/-- After the two orders timed out, the handle of the first receive removes nothing. -/
theorem deletesRightly_timedOut :
    timedOut.Conserves ∧ timedOut.DeletesRightly (RandomSource.growing.receiptHandle 6) := by
  have hledger := conserves_and_deletesRightly_iff RandomSource.growing timedOut
    (reached_foldl _ reached_empty)
  refine ⟨hledger.1, (hledger.2 _).mpr ?_⟩
  decide

/-- A deletion under the empty handle removes both messages. -/
theorem not_deletesRightly_timedOut :
    Reached RandomSource.growing timedOut ∧ ¬ timedOut.DeletesRightly "" := by
  refine ⟨reached_foldl _ reached_empty, ?_⟩
  rintro ⟨hlength, -⟩
  revert hlength
  decide

end Samples

end Ledger

end AwsMock.Sqs
