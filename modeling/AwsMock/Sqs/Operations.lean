import AwsMock.Foundation.Contract
import AwsMock.Sqs.Service

/-! # Runs of the queue service

The calls that reach the queue service from outside, the periodic reset among
them, and the runs they make. The Lambda functions and what they answer may be
different in every call.
-/

namespace AwsMock.Sqs

open Foundation

/-- A call of the service, or one pass of the periodic reset, with its clock
readings. -/
inductive Operation where
  | createQueue (now : Time) (request : Dto.CreateQueueRequest)
  | deleteQueue (now : Time) (request : Dto.DeleteQueueRequest)
  | sendMessage (now : Time) (request : Dto.SendMessageRequest)
  | receiveMessages (now : Time) (later : List Time) (request : Dto.ReceiveMessageRequest)
  | deleteMessage (request : Dto.DeleteMessageRequest)
  | deleteMessageBatch (entries : List Dto.DeleteMessageBatchEntry)
  | purgeQueue (now : Time) (request : Dto.PurgeQueueRequest)
  | resendMessage (now : Time) (request : Dto.ResendMessageRequest)
  | redriveMessage (now : Time) (request : Dto.RedriveMessageRequest)
  | redriveMessages (now : Time) (request : Dto.RedriveMessagesRequest)
  | resetMessages (now : Time)

structure Lambdas where
  listLambdasWithEventSource : String → List String
  invokeLambdaFunction : String → Dto.EventRecord → Except CoreException Dto.LambdaResult

def Context.withLambdas (context : Context) (lambdas : Lambdas) : Context :=
  { context with
    listLambdasWithEventSource := lambdas.listLambdasWithEventSource
    invokeLambdaFunction := lambdas.invokeLambdaFunction }

variable {Store : Type} (context : Context) (db : Repository Store)

def Operation.run : Operation → Call Mutex Store Unit
  | .createQueue now request => do
      let _ ← Service.createQueue context db now request
      return ()
  | .deleteQueue now request => do
      let _ ← Service.deleteQueue db now request
      return ()
  | .sendMessage now request => do
      let _ ← Service.sendMessage context db now request
      return ()
  | .receiveMessages now later request => do
      let _ ← Service.receiveMessages context db now later request
      return ()
  | .deleteMessage request => Service.deleteMessage db request
  | .deleteMessageBatch entries => do
      let _ ← Service.deleteMessageBatch db entries
      return ()
  | .purgeQueue now request => do
      let _ ← Service.purgeQueue context db now request
      return ()
  | .resendMessage now request => Service.resendMessage context db now request
  | .redriveMessage now request => Service.redriveMessage db now request
  | .redriveMessages now request => do
      let _ ← Service.redriveMessages db now request
      return ()
  | .resetMessages now => Server.resetMessages db now

/-- One operation takes place. What it changed before it threw is kept. -/
def Step (before after : World Store) : Prop :=
  ∃ (operation : Operation) (lambdas : Lambdas),
    after = ((operation.run (context.withLambdas lambdas) db).run [] before).after

abbrev Reaches : World Store → World Store → Prop :=
  Relation.ReflTransGen (Step context db)

section Send

variable {context db}
variable {now : Time} {queueArn : String} {request : Dto.SendMessageRequest}
variable {before stored : World Store} {updated : Queue} {message : Message}

theorem exists_of_run_storeMessage
    (hrun : (Service.storeMessage context db now queueArn request).run [] before =
      .returns (updated, message) stored) :
    ∃ found middle entity world,
      (db.getQueueByArn now queueArn).run [] before = .returns found middle ∧
      Mapper.sendMessageRequestToEntity context.config context.tools now request = .ok entity ∧
      (db.updateQueue now (Service.countedQueue found)).run [] middle = .returns updated world ∧
      (db.createMessage (Service.finishedMessage context now updated request
        (context.random.uuid world.draws) (context.random.receiptHandle (world.draws + 1))
        (Service.scheduledMessage now found request entity))).run []
          ⟨world.store, world.draws + 2⟩ = .returns message stored := by
  rw [Service.storeMessage] at hrun
  obtain ⟨found, middle, hfound, hconvert⟩ := Action.run_bind_eq_returns.mp hrun
  obtain ⟨entity, _, hconverted, hupdate⟩ := Action.run_bind_eq_returns.mp hconvert
  obtain ⟨hentity, rfl⟩ := Call.run_ofExcept_eq_returns.mp hconverted
  obtain ⟨changed, world, hupdated, hdraw⟩ := Action.run_bind_eq_returns.mp hupdate
  rw [Action.run_bind, Call.run_draw, Outcome.andThen_returns, Action.run_bind, Call.run_draw,
    Outcome.andThen_returns] at hdraw
  obtain ⟨created, last, hcreated, hpure⟩ := Action.run_bind_eq_returns.mp hdraw
  injection hpure with hpair hlast
  injection hpair with hqueue hmessage
  subst hqueue hmessage hlast
  exact ⟨found, _, entity, world, hfound, hentity, hupdated, hcreated⟩

end Send

section Samples

/-- A toolbox that knows the digests of nothing and of one greeting. -/
def sampleTools : Toolbox where
  md5 bytes := if bytes = [] then "d41d8cd98f00b204e9800998ecf8427e"
    else "5d41402abc4b2a76b9719d911017c592"
  urlDecode text := .ok text
  fromContent _ := "text/plain"

def sampleContext : Context where
  config := ⟨"eu-central-1", "000000000000", "localhost", "4566"⟩
  random := RandomSource.growing
  tools := sampleTools
  listLambdasWithEventSource _ := []
  invokeLambdaFunction _ _ := .error (.service "no such function")

def helloRequest : Dto.SendMessageRequest :=
  { region := "eu-central-1", queueUrl := "arn:aws:sqs:eu-central-1:000000000000:orders",
    body := "hello" }

end Samples

end AwsMock.Sqs
