import AwsMock.Foundation.Batches
import AwsMock.Foundation.Traverse
import AwsMock.Sqs.Identifiers
import AwsMock.Sqs.Operations

/-! # Batches of sends and of deletions

`sendMessageBatch` makes a request of its own for every entry and stops at the first exception;
`deleteMessageBatch` deletes one handle after the other. Both are compared with the single calls.
-/

namespace AwsMock.Sqs

open Foundation

namespace Dto

structure MessageEntry where
  id : String
  body : String := ""
  attributes : StringMap String := ∅
  messageAttributes : StringMap MessageAttribute := ∅

/-- The entries come with the clock readings at which they are sent. -/
structure SendMessageBatchRequest extends Metadata where
  queueUrl : String
  entries : List (Time × MessageEntry)

structure MessageSuccessful where
  id : String
  messageId : String
  md5Body : String
  md5MessageAttributes : String
  md5SystemAttributes : String

structure MessageFailed where
  id : String

structure SendMessageBatchResponse where
  successful : List MessageSuccessful
  failed : List MessageFailed

end Dto

namespace Service

variable {Store : Type} (context : Context) (db : Repository Store)

def entryRequest (region queueUrl : String) (entry : Dto.MessageEntry) : Dto.SendMessageRequest where
  region := region
  queueUrl := queueUrl
  attributes := entry.attributes
  messageAttributes := entry.messageAttributes
  body := entry.body

def messageSuccessful (entry : Dto.MessageEntry) (response : Dto.SendMessageResponse) :
    Dto.MessageSuccessful where
  id := entry.id
  messageId := response.messageId
  md5Body := response.md5Body
  md5MessageAttributes := response.md5MessageAttributes
  md5SystemAttributes := response.md5MessageSystemAttributes

def sendEntries (region queueUrl : String) (entries : List (Time × Dto.MessageEntry)) :
    Call Mutex Store Dto.SendMessageBatchResponse :=
  entries.foldlM
    (fun sqsResponse entry => do
      return { sqsResponse with
        successful := sqsResponse.successful ++ [messageSuccessful entry.2
          (← sendMessage context db entry.1 (entryRequest region queueUrl entry.2))] })
    ⟨[], []⟩

def sendMessageBatch (now : Time) (request : Dto.SendMessageBatchRequest) :
    Call Mutex Store Dto.SendMessageBatchResponse := do
  let queueUrl := AwsUtils.sanitizeSQSUrl context.config request.queueUrl
  if ← db.queueUrlExists request.region queueUrl then
    translated do
      let _ ← db.getQueueByUrl now request.region queueUrl
      sendEntries context db request.region queueUrl request.entries
  else queueUrlDoesNotExist request.region queueUrl

end Service

/-! ## Single calls -/

def singleRequest (request : Dto.SendMessageBatchRequest) (entry : Dto.MessageEntry) :
    Dto.SendMessageRequest where
  toMetadata := request.toMetadata
  queueUrl := request.queueUrl
  attributes := entry.attributes
  messageAttributes := entry.messageAttributes
  body := entry.body

/-- The response to entries that were sent and to entries that were not. -/
def respond (reports : List ((Time × Dto.MessageEntry) × Option Dto.SendMessageResponse)) :
    Dto.SendMessageBatchResponse where
  successful := reports.filterMap fun report =>
    report.2.map (Service.messageSuccessful report.1.2)
  failed := reports.filterMap fun report => if report.2.isNone then some ⟨report.1.2.id⟩ else none

section Definitions

variable {Store : Type} (context : Context) (db : Repository Store)

/-- The message that a request stores in a queue, under drawn ids. -/
def storedMessage (now : Time) (found updated : Queue) (request : Dto.SendMessageRequest)
    (messageId receiptHandle : String) : Except CoreException Message := do
  let entity ← Mapper.sendMessageRequestToEntity context.config context.tools now request
  .ok (Service.finishedMessage context now updated request messageId receiptHandle
    (Service.scheduledMessage now found request entity))

def StoresSame (left right : Dto.SendMessageRequest) : Prop :=
  AwsUtils.convertToArn context.config left.region left.queueUrl =
      AwsUtils.convertToArn context.config right.region right.queueUrl ∧
    ∀ now found updated messageId receiptHandle,
      storedMessage context now found updated left messageId receiptHandle =
        storedMessage context now found updated right messageId receiptHandle

/-- The queue of a batch is looked up before the first entry is sent. -/
def LooksUp (now : Time) (request : Dto.SendMessageBatchRequest) (before middle : World Store) :
    Prop :=
  let queueUrl := AwsUtils.sanitizeSQSUrl context.config request.queueUrl
  ∃ queue known, (db.queueUrlExists request.region queueUrl).run [] before = .returns true known ∧
    (db.getQueueByUrl now request.region queueUrl).run [] known = .returns queue middle

/-- A batch is what its entries do when each is sent on its own: the same messages are stored, one
after the other, an entry that fails is passed over, and each entry is reported once. -/
def SendsEach (now : Time) (request : Dto.SendMessageBatchRequest) (before : World Store) : Prop :=
  ∃ middle results after, LooksUp context db now request before middle ∧
    (Action.each (fun entry => Action.attempt
        (Service.sendMessage context db entry.1 (singleRequest request entry.2)))
      request.entries).run [] middle = .returns results after ∧
    (Service.sendMessageBatch context db now request).run [] before =
      .returns (respond (request.entries.zip results)) after ∧
    ((respond (request.entries.zip results)).successful.map Dto.MessageSuccessful.id ++
      (respond (request.entries.zip results)).failed.map Dto.MessageFailed.id).Perm
        (request.entries.map fun entry => entry.2.id) ∧
    ∀ entry ∈ request.entries, StoresSame context (Service.entryRequest request.region
        (AwsUtils.sanitizeSQSUrl context.config request.queueUrl) entry.2)
      (singleRequest request entry.2)

/-- A batch of deletions does what the single deletions do, and reports every entry by whether its
handle deleted a message. -/
def DeletesEach (entries : List Dto.DeleteMessageBatchEntry) (before : World Store) : Prop :=
  ∃ counts after,
    (Action.each (fun entry : Dto.DeleteMessageBatchEntry => db.deleteMessage entry.receiptHandle)
      entries).run [] before = .returns counts after ∧
    (∃ deleted, (Action.each (fun entry : Dto.DeleteMessageBatchEntry =>
        Service.deleteMessage db { receiptHandle := entry.receiptHandle })
      entries).run [] before = .returns deleted after) ∧
    (Service.deleteMessageBatch db entries).run [] before = .returns
      ⟨((entries.zip counts).filter fun entry => decide (entry.2 > 0)).map (·.1.id),
        ((entries.zip counts).filter fun entry => !decide (entry.2 > 0)).map (·.1.id)⟩ after

/-- The queue of the batch is known, its URL leads to the queue that the request names, the request
has no user, and no entry throws when it is sent on its own in its turn. -/
def NoneFails (now : Time) (request : Dto.SendMessageBatchRequest) (before : World Store) : Prop :=
  ∃ middle, LooksUp context db now request before middle ∧
    (request.entries ≠ [] → request.user = "" ∧ AwsUtils.convertToArn context.config request.region
          (AwsUtils.sanitizeSQSUrl context.config request.queueUrl) =
        AwsUtils.convertToArn context.config request.region request.queueUrl) ∧
    ∃ responses after, (Action.each (fun entry =>
        Service.sendMessage context db entry.1 (singleRequest request entry.2))
      request.entries).run [] middle = .returns responses after

end Definitions

/-! ## Reports -/

section Reports

variable {entries : List (Time × Dto.MessageEntry)}

theorem respond_perm {results : List (Option Dto.SendMessageResponse)}
    (hlength : results.length = entries.length) :
    ((respond (entries.zip results)).successful.map Dto.MessageSuccessful.id ++
      (respond (entries.zip results)).failed.map Dto.MessageFailed.id).Perm
        (entries.map fun entry => entry.2.id) := by
  induction entries generalizing results with
  | nil =>
    obtain rfl := List.length_eq_zero_iff.mp hlength
    exact List.Perm.refl _
  | cons entry entries ih =>
    cases results with
    | nil => cases hlength
    | cons result results =>
      have hrest := ih (Nat.succ.inj hlength)
      cases result with
      | some response => exact hrest.cons entry.2.id
      | none => exact List.perm_middle.trans (hrest.cons entry.2.id)

theorem respond_map_some (responses : List Dto.SendMessageResponse) :
    respond (entries.zip (responses.map some)) =
      ⟨(entries.zip responses).map fun entry => Service.messageSuccessful entry.1.2 entry.2, []⟩ := by
  induction entries generalizing responses with
  | nil => rfl
  | cons entry entries ih =>
    cases responses with
    | nil => rfl
    | cons response responses =>
      have hrest := ih responses
      rw [respond, Dto.SendMessageBatchResponse.mk.injEq] at hrest ⊢
      obtain ⟨hsuccessful, hfailed⟩ := hrest
      exact ⟨congrArg (List.cons _) hsuccessful, hfailed⟩

theorem foldl_successful (sent : List ((Time × Dto.MessageEntry) × Dto.SendMessageResponse))
    (sqsResponse : Dto.SendMessageBatchResponse) :
    sent.foldl (fun acc entry => { acc with
        successful := acc.successful ++ [Service.messageSuccessful entry.1.2 entry.2] })
      sqsResponse =
      { sqsResponse with
        successful := sqsResponse.successful ++
          sent.map fun entry => Service.messageSuccessful entry.1.2 entry.2 } := by
  induction sent generalizing sqsResponse with
  | nil => rw [List.foldl_nil, List.map_nil, List.append_nil]
  | cons entry sent ih =>
    rw [List.foldl_cons, ih, List.map_cons]
    simp only [List.append_assoc, List.singleton_append]

end Reports

/-! ## One entry -/

section Entries

variable {Store : Type} {context : Context} {db : Repository Store}
variable {request : Dto.SendMessageBatchRequest} {entry : Dto.MessageEntry}

theorem attributes_scheduledMessage (now : Time) (found : Queue) (sent : Dto.SendMessageRequest)
    (entity : Message) :
    (Service.scheduledMessage now found sent entity).attributes =
      Service.systemAttributes now found sent entity.attributes := by
  rw [Service.scheduledMessage]
  dsimp only
  split <;> rfl

theorem storedMessage_sender {now : Time} {found updated : Queue}
    {sent : Dto.SendMessageRequest} {messageId receiptHandle : String} {message : Message}
    (hstored : storedMessage context now found updated sent messageId receiptHandle = .ok message) :
    message.attributes["SenderId"]? = some sent.user := by
  obtain ⟨entity, -, hmessage⟩ := bind_eq_ok.mp hstored
  obtain rfl := Except.ok.inj hmessage
  change (Service.scheduledMessage now found sent entity).attributes["SenderId"]? = _
  rw [attributes_scheduledMessage, Service.systemAttributes, Std.ExtTreeMap.getElem?_insert,
    if_neg (by decide), Std.ExtTreeMap.getElem?_insert, if_neg (by decide),
    Std.ExtTreeMap.getElem?_insert, if_pos (by decide)]

theorem finishedMessage_entryRequest (now : Time) (found updated : Queue)
    (queueUrl messageId receiptHandle queueName queueArn : String) (entity : Message)
    (huser : request.user = "") :
    Service.finishedMessage context now updated
        (Service.entryRequest request.region queueUrl entry) messageId receiptHandle
        (Service.scheduledMessage now found (Service.entryRequest request.region queueUrl entry)
          entity) =
      Service.finishedMessage context now updated (singleRequest request entry) messageId
        receiptHandle
        (Service.scheduledMessage now found (singleRequest request entry)
          { entity with queueName := queueName, queueArn := queueArn }) := by
  have hsystem : ∀ attributes, Service.systemAttributes now found
      (Service.entryRequest request.region queueUrl entry) attributes =
        Service.systemAttributes now found (singleRequest request entry) attributes := by
    intro attributes
    rw [Service.systemAttributes, Service.systemAttributes]
    change (((_ : StringMap String).insert "SenderId" "").insert _ _).insert _ _ =
      (((_ : StringMap String).insert "SenderId" request.user).insert _ _).insert _ _
    rw [huser]
    rfl
  rw [Service.scheduledMessage, Service.scheduledMessage]
  dsimp only
  rw [hsystem]
  split <;> rfl

theorem sendMessageRequestToEntity_entryRequest (now : Time) (queueUrl : String) :
    ∃ queueName queueArn, Mapper.sendMessageRequestToEntity context.config context.tools now
          (singleRequest request entry) =
        (Mapper.sendMessageRequestToEntity context.config context.tools now
          (Service.entryRequest request.region queueUrl entry)).map fun entity =>
            { entity with queueName := queueName, queueArn := queueArn } := by
  refine ⟨AwsUtils.convertSQSQueueUrlToName request.queueUrl,
    AwsUtils.createArn "sqs" request.region context.config.accountId
      (AwsUtils.convertSQSQueueUrlToName request.queueUrl), ?_⟩
  rw [Mapper.sendMessageRequestToEntity, Mapper.sendMessageRequestToEntity]
  change (SqsUtils.createMd5OfMessageSystemAttributes context.tools entry.attributes >>= _) =
    (SqsUtils.createMd5OfMessageSystemAttributes context.tools entry.attributes >>= _).map _
  cases SqsUtils.createMd5OfMessageSystemAttributes context.tools entry.attributes <;> rfl

variable (huser : request.user = "")
include huser

theorem storedMessage_entryRequest (now : Time) (found updated : Queue)
    (queueUrl messageId receiptHandle : String) :
    storedMessage context now found updated
        (Service.entryRequest request.region queueUrl entry) messageId receiptHandle =
      storedMessage context now found updated (singleRequest request entry) messageId
        receiptHandle := by
  obtain ⟨queueName, queueArn, hentity⟩ :=
    @sendMessageRequestToEntity_entryRequest context request entry now queueUrl
  rw [storedMessage, storedMessage, hentity]
  cases Mapper.sendMessageRequestToEntity context.config context.tools now
      (Service.entryRequest request.region queueUrl entry) with
  | error exn => rfl
  | ok entity =>
    exact congrArg Except.ok (finishedMessage_entryRequest now found updated queueUrl messageId
      receiptHandle queueName queueArn entity huser)

theorem storeMessage_entryRequest (now : Time) (queueUrl queueArn : String) :
    Service.storeMessage context db now queueArn
        (Service.entryRequest request.region queueUrl entry) =
      Service.storeMessage context db now queueArn (singleRequest request entry) := by
  obtain ⟨queueName, queueArn', hentity⟩ :=
    @sendMessageRequestToEntity_entryRequest context request entry now queueUrl
  rw [Service.storeMessage, Service.storeMessage, hentity]
  refine congrArg (db.getQueueByArn now queueArn >>= ·) (funext fun found => ?_)
  cases Mapper.sendMessageRequestToEntity context.config context.tools now
      (Service.entryRequest request.region queueUrl entry) with
  | error exn => rfl
  | ok entity =>
    refine congrArg (db.updateQueue now (Service.countedQueue found) >>= ·)
      (funext fun updated => ?_)
    refine congrArg (Call.draw >>= ·) (funext fun first => ?_)
    refine congrArg (Call.draw >>= ·) (funext fun second => ?_)
    exact congrArg
      (fun message => db.createMessage message >>= fun message => pure (updated, message))
      (finishedMessage_entryRequest now found updated queueUrl (context.random.uuid first)
        (context.random.receiptHandle second) queueName queueArn' entity huser)

theorem sendMessage_entryRequest {now : Time} {queueUrl : String}
    (harn : AwsUtils.convertToArn context.config request.region queueUrl =
      AwsUtils.convertToArn context.config request.region request.queueUrl) :
    Service.sendMessage context db now (Service.entryRequest request.region queueUrl entry) =
      Service.sendMessage context db now (singleRequest request entry) := by
  have harns : AwsUtils.convertToArn context.config
      (Service.entryRequest request.region queueUrl entry).region
      (Service.entryRequest request.region queueUrl entry).queueUrl =
    AwsUtils.convertToArn context.config (singleRequest request entry).region
      (singleRequest request entry).queueUrl := harn
  rw [Service.sendMessage, Service.sendMessage, harns, storeMessage_entryRequest huser]

theorem storesSame_entryRequest {queueUrl : String}
    (harn : AwsUtils.convertToArn context.config request.region queueUrl =
      AwsUtils.convertToArn context.config request.region request.queueUrl) :
    StoresSame context (Service.entryRequest request.region queueUrl entry)
      (singleRequest request entry) :=
  ⟨harn, fun now found updated messageId receiptHandle =>
    storedMessage_entryRequest huser now found updated queueUrl messageId receiptHandle⟩

end Entries

/-! ## Batches -/

section Batches

variable {Store : Type} {context : Context} {db : Repository Store}

theorem run_sendMessageBatch_eq_returns {now : Time} {request : Dto.SendMessageBatchRequest}
    {before after : World Store} {response : Dto.SendMessageBatchResponse} :
    (Service.sendMessageBatch context db now request).run [] before = .returns response after ↔
      ∃ middle responses, LooksUp context db now request before middle ∧
        (Action.each (fun entry : Time × Dto.MessageEntry =>
            Service.sendMessage context db entry.1 (Service.entryRequest request.region
              (AwsUtils.sanitizeSQSUrl context.config request.queueUrl) entry.2))
          request.entries).run [] middle = .returns responses after ∧
        response = ⟨(request.entries.zip responses).map fun entry =>
          Service.messageSuccessful entry.1.2 entry.2, []⟩ := by
  rw [Service.sendMessageBatch, Action.run_bind_eq_returns]
  constructor
  · rintro ⟨exists', known, hexists, hrest⟩
    cases exists' with
    | false => cases hrest
    | true =>
      rw [if_pos rfl, Service.translated, Action.run_rethrow_eq_returns,
        Action.run_bind_eq_returns] at hrest
      obtain ⟨queue, middle, hqueue, hsends⟩ := hrest
      obtain ⟨responses, hresponses, rfl⟩ := Action.run_foldlM_eq_returns.mp hsends
      refine ⟨middle, responses, ⟨queue, known, hexists, hqueue⟩, hresponses, ?_⟩
      exact foldl_successful (request.entries.zip responses) ⟨[], []⟩
  · rintro ⟨middle, responses, ⟨queue, known, hexists, hqueue⟩, hresponses, rfl⟩
    refine ⟨true, known, hexists, ?_⟩
    rw [if_pos rfl, Service.translated, Action.run_rethrow_eq_returns, Action.run_bind_eq_returns]
    refine ⟨queue, middle, hqueue, Action.run_foldlM_eq_returns.mpr ⟨responses, hresponses, ?_⟩⟩
    exact (foldl_successful (request.entries.zip responses) ⟨[], []⟩).symm

theorem exists_storedMessage {now : Time} {sent : Dto.SendMessageRequest}
    {before after : World Store} {response : Dto.SendMessageResponse}
    (hrun : (Service.sendMessage context db now sent).run [] before = .returns response after) :
    ∃ found updated messageId receiptHandle message,
      storedMessage context now found updated sent messageId receiptHandle = .ok message := by
  rw [Service.sendMessage, Action.run_bind_eq_returns] at hrun
  obtain ⟨known, middle, -, hrest⟩ := hrun
  split at hrest
  next => cases hrest
  next =>
    rw [Service.translated, Action.run_rethrow_eq_returns, Action.run_bind_eq_returns] at hrest
    obtain ⟨⟨updated, message⟩, stored, hstore, -⟩ := hrest
    obtain ⟨found, -, entity, world, -, hentity, -, -⟩ := exists_of_run_storeMessage hstore
    exact ⟨found, updated, context.random.uuid world.draws,
      context.random.receiptHandle (world.draws + 1), _,
      bind_eq_ok.mpr ⟨entity, hentity, rfl⟩⟩

variable {now : Time} {request : Dto.SendMessageBatchRequest} {before : World Store}

theorem sendsEach_iff :
    SendsEach context db now request before ↔ NoneFails context db now request before := by
  have hsame : (request.entries ≠ [] → request.user = "" ∧
      AwsUtils.convertToArn context.config request.region
          (AwsUtils.sanitizeSQSUrl context.config request.queueUrl) =
        AwsUtils.convertToArn context.config request.region request.queueUrl) →
      ∀ middle : World Store,
        (Action.each (fun entry : Time × Dto.MessageEntry =>
            Service.sendMessage context db entry.1 (Service.entryRequest request.region
              (AwsUtils.sanitizeSQSUrl context.config request.queueUrl) entry.2))
          request.entries).run [] middle =
        (Action.each (fun entry => Service.sendMessage context db entry.1
          (singleRequest request entry.2)) request.entries).run [] middle := by
    intro hplain middle
    by_cases hempty : request.entries = []
    · rw [hempty]
      rfl
    · obtain ⟨huser, harn⟩ := hplain hempty
      simp only [sendMessage_entryRequest huser harn]
  constructor
  · rintro ⟨_, _, after, _, _, hbatch, _, hstores⟩
    obtain ⟨middle, responses, hlook, hresponses, -⟩ := run_sendMessageBatch_eq_returns.mp hbatch
    have hplain : request.entries ≠ [] → request.user = "" ∧
        AwsUtils.convertToArn context.config request.region
            (AwsUtils.sanitizeSQSUrl context.config request.queueUrl) =
          AwsUtils.convertToArn context.config request.region request.queueUrl := by
      intro hnonempty
      obtain ⟨entry, rest, hentries⟩ := List.exists_cons_of_ne_nil hnonempty
      rw [hentries] at hresponses
      obtain ⟨response, next, later, hfirst, -, -⟩ :=
        Action.run_each_cons_eq_returns.mp hresponses
      obtain ⟨harn, hmessages⟩ := hstores entry (hentries ▸ List.mem_cons_self)
      obtain ⟨found, updated, messageId, receiptHandle, message, hstored⟩ :=
        exists_storedMessage hfirst
      have hsingle := hstored
      rw [hmessages] at hsingle
      have huser := (storedMessage_sender hsingle).symm.trans (storedMessage_sender hstored)
      exact ⟨Option.some.inj huser, harn⟩
    exact ⟨middle, hlook, hplain, responses, after, hsame hplain middle ▸ hresponses⟩
  · rintro ⟨middle, hlook, hplain, responses, after, hresponses⟩
    refine ⟨middle, responses.map some, after, hlook, ?_, ?_, ?_, fun entry hentry => ?_⟩
    · exact Action.run_each_attempt_map_some.mpr hresponses
    · rw [respond_map_some]
      exact run_sendMessageBatch_eq_returns.mpr
        ⟨middle, responses, hlook, (hsame hplain middle).trans hresponses, rfl⟩
    · refine respond_perm ?_
      rw [List.length_map]
      exact Action.length_of_run_each hresponses
    · obtain ⟨huser, harn⟩ := hplain (List.ne_nil_of_mem hentry)
      exact storesSame_entryRequest huser harn

theorem foldl_deleted (deleted : List (Dto.DeleteMessageBatchEntry × Int))
    (response : Dto.DeleteMessageBatchResponse) :
    deleted.foldl (fun acc entry =>
        if entry.2 > 0 then { acc with successfull := acc.successfull ++ [entry.1.id] }
        else { acc with failed := acc.failed ++ [entry.1.id] }) response =
      ⟨response.successfull ++ (deleted.filter fun entry => decide (entry.2 > 0)).map (·.1.id),
        response.failed ++ (deleted.filter fun entry => !decide (entry.2 > 0)).map (·.1.id)⟩ := by
  induction deleted generalizing response with
  | nil => simp
  | cons entry deleted ih =>
    rw [List.foldl_cons, ih]
    by_cases hpos : entry.2 > 0 <;> simp [hpos]

theorem deletesEach_of_returns (hdelete : ∀ (receiptHandle : String) (world : World Store),
    ∃ count next, (db.deleteMessage receiptHandle).run [] world = .returns count next)
    (entries : List Dto.DeleteMessageBatchEntry) : DeletesEach db entries before := by
  obtain ⟨counts, after, hcounts⟩ := Action.exists_run_each
    (fun (entry : Dto.DeleteMessageBatchEntry) => hdelete entry.receiptHandle) entries before
  refine ⟨counts, after, hcounts, ?_, ?_⟩
  · refine Action.exists_run_each_of_run_each (fun entry world count next hrun => ⟨(), ?_⟩) hcounts
    rw [Service.deleteMessage, Service.translated, Action.run_rethrow_eq_returns,
      Action.run_bind_eq_returns]
    exact ⟨count, next, hrun, rfl⟩
  · have hstep : ∀ (response : Dto.DeleteMessageBatchResponse)
        (entry : Dto.DeleteMessageBatchEntry), (do
          let deleted ← db.deleteMessage entry.receiptHandle
          if deleted > 0 then
            return { response with successfull := response.successfull ++ [entry.id] }
          else return { response with failed := response.failed ++ [entry.id] } :
            Call Mutex Store Dto.DeleteMessageBatchResponse) = do
          return (fun (acc : Dto.DeleteMessageBatchResponse)
            (entry : Dto.DeleteMessageBatchEntry) (deleted : Int) =>
              if deleted > 0 then { acc with successfull := acc.successfull ++ [entry.id] }
              else { acc with failed := acc.failed ++ [entry.id] })
            response entry (← db.deleteMessage entry.receiptHandle) := by
      intro response entry
      refine congrArg (db.deleteMessage entry.receiptHandle >>= ·) (funext fun deleted => ?_)
      dsimp only
      split <;> rfl
    rw [Service.deleteMessageBatch, Service.translated, Action.run_rethrow_eq_returns]
    simp only [hstep]
    rw [Action.run_foldlM_eq_returns]
    exact ⟨counts, hcounts, (foldl_deleted (entries.zip counts) ⟨[], []⟩).symm⟩

theorem not_noneFails_of_attribute {entry : Time × Dto.MessageEntry} {name value : String}
    {exn : CoreException} (hentry : request.entries.head? = some entry)
    (hvalue : entry.2.attributes[name]? = some value) (hne : value ≠ "")
    (hdecode : context.tools.urlDecode value = .error exn) :
    ¬NoneFails context db now request before := by
  rintro ⟨middle, -, -, responses, after, hresponses⟩
  obtain ⟨rest, hentries⟩ := List.head?_eq_some_iff.mp hentry
  rw [hentries] at hresponses
  obtain ⟨response, next, later, hfirst, -, -⟩ := Action.run_each_cons_eq_returns.mp hresponses
  obtain ⟨found, updated, messageId, receiptHandle, message, hstored⟩ :=
    exists_storedMessage hfirst
  obtain ⟨entity, hentity, -⟩ := bind_eq_ok.mp hstored
  rw [Mapper.sendMessageRequestToEntity] at hentity
  obtain ⟨md5, hmd5, -⟩ := bind_eq_ok.mp hentity
  obtain ⟨parts, hparts, -⟩ := bind_eq_ok.mp hmd5
  have hmem := Std.ExtTreeMap.mem_toList_iff_getElem?_eq_some.mpr hvalue
  obtain ⟨part, hpart⟩ := exists_of_mem_of_mapM_eq_ok hparts hmem
  rw [SqsUtils.systemAttributeBytes, if_neg hne, hdecode] at hpart
  cases hpart

end Batches

/-! ## Both repositories -/

theorem exists_run_memory_deleteMessage (random : RandomSource) (receiptHandle : String)
    (world : World MemoryStore) :
    ∃ count next, ((memoryRepository random).deleteMessage receiptHandle).run [] world =
      .returns count next := by
  change ∃ count next, (MemoryRepository.deleteMessage receiptHandle).run [] world =
    .returns count next
  rw [MemoryRepository.deleteMessage, Action.run_scopedLock_free List.not_mem_nil]
  exact ⟨_, _, rfl⟩

theorem exists_run_mongo_deleteMessage (random : RandomSource)
    (order : Option Value → Option Value → Bool) (fuel : Nat) (receiptHandle : String)
    (world : World MongoStore) :
    ∃ count next, ((mongoRepository random order fuel).deleteMessage receiptHandle).run [] world =
      .returns count next :=
  ⟨_, _, rfl⟩

/-- Over either repository, batches of deletions are single deletions, and a batch of sends is its
single sends exactly when none of its entries fails. -/
theorem batches_iff (context : Context) (now : Time) (request : Dto.SendMessageBatchRequest)
    (entries : List Dto.DeleteMessageBatchEntry) :
    (∀ before : World MemoryStore,
      (SendsEach context (memoryRepository context.random) now request before ∧
          DeletesEach (memoryRepository context.random) entries before) ↔
        NoneFails context (memoryRepository context.random) now request before) ∧
    ∀ (order : Option Value → Option Value → Bool) (fuel : Nat) (before : World MongoStore),
      (SendsEach context (mongoRepository context.random order fuel) now request before ∧
          DeletesEach (mongoRepository context.random order fuel) entries before) ↔
        NoneFails context (mongoRepository context.random order fuel) now request before := by
  refine ⟨fun before => ?_, fun order fuel before => ?_⟩
  · rw [sendsEach_iff, and_iff_left]
    exact deletesEach_of_returns (exists_run_memory_deleteMessage context.random) entries
  · rw [sendsEach_iff, and_iff_left]
    exact deletesEach_of_returns (exists_run_mongo_deleteMessage context.random order fuel) entries

def strictContext : Context :=
  { sampleContext with
    tools := { sampleTools with
      urlDecode := fun text => if text = "%" then .error (.standard "bad escape") else .ok text } }

def failingBatch : Dto.SendMessageBatchRequest :=
  { region := "eu-central-1"
    queueUrl := "http://sqs.eu-central-1.localhost:4566/000000000000/orders"
    entries :=
      [(0, { id := "first", attributes := (∅ : StringMap String).insert "AWSTraceHeader" "%" }),
        (0, { id := "second", body := "hello" })] }

/-- The first entry hides the second. -/
theorem not_sendsEach_failingBatch :
    ¬SendsEach strictContext (memoryRepository strictContext.random) 0 failingBatch
      ⟨MemoryStore.singleQueue orderQueue, 0⟩ := by
  rw [sendsEach_iff]
  refine @not_noneFails_of_attribute _ _ _ _ _ _ _ "AWSTraceHeader" "%" (.standard "bad escape")
    rfl ?_ (by decide) ?_
  · change ((∅ : StringMap String).insert "AWSTraceHeader" "%")["AWSTraceHeader"]? = some "%"
    rw [Std.ExtTreeMap.getElem?_insert_self]
  · change (if "%" = "%" then Except.error (CoreException.standard "bad escape") else .ok "%") = _
    exact if_pos rfl

end AwsMock.Sqs
