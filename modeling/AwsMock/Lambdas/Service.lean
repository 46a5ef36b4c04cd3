import AwsMock.Foundation.Threads
import AwsMock.Lambdas.Entity

/-! # Operations on a lambda function

The operations read the function, work on their copy and write it back, or change one
instance of the stored function. Each call of the repository is one step; invocations hold a
mutex of the function while they choose an instance and while they give it back.
-/

namespace AwsMock.Lambdas

open Foundation

/-- What a copy of the function is written back for, and which instances have been taken out
of it because their containers do not run, or because they are to be stopped. -/
inductive Purpose where
  | claim (instanceId : String)
  | reset (instanceId : String)
  | added
  | stuck (instanceId : String)
  | created
  | checked (removed : List String)
  | stopped (instanceId : String)
  | adopted
deriving DecidableEq

namespace Purpose

def isLocked : Purpose → Bool
  | claim _ | reset _ | added | stuck _ => true
  | created | checked _ | stopped _ | adopted => false

def removed : Purpose → List String
  | checked removed => removed
  | stopped instanceId => [instanceId]
  | _ => []

def serve (served : List String) : Purpose → List String
  | claim instanceId => instanceId :: served
  | reset instanceId => served.erase instanceId
  | _ => served

end Purpose

/-- The calls of the repository and of the mutex. An invocation ends with its last update of
the instance, or with an exception. -/
inductive Call where
  | getLambda
  | updateLambda (purpose : Purpose) (lambda : Lambda)
  | addLambdaInstance (instance' : Instance)
  | updateLambdaInstanceConnection (instanceId containerId : String)
  | updateLambdaInstance (instance' : Instance) (ends : Bool)
  | updateLambdaCounters (invocations : Int)
  | lock
  | unlock
  | fail (instanceId : String)

abbrev Call.Reply : Call → Type
  | getLambda | updateLambda _ _ | addLambdaInstance _ | updateLambdaInstanceConnection _ _ =>
    Lambda
  | updateLambdaInstance _ _ => Bool
  | updateLambdaCounters _ | lock | unlock | fail _ => Unit

/-- The stored function and its mutex; the instances that serve an invocation, and those that
have been registered and not been taken out for a reason, are there for the statements. -/
structure Store where
  lambda : Lambda
  mutex : Bool := false
  served : List String := []
  registered : List String := []

def execute : (request : Call) → Store → Call.Reply request × Store
  | .getLambda, store => (store.lambda, store)
  | .updateLambda purpose lambda, store =>
    (lambda,
      { store with
        lambda := lambda
        served := purpose.serve store.served
        registered := store.registered.filter fun id => id ∉ purpose.removed })
  | .addLambdaInstance instance', store =>
    let lambda := { store.lambda with instances := store.lambda.instances ++ [instance'] }
    (lambda,
      { store with
        lambda := lambda
        registered := store.registered ++ [instance'.instanceId] })
  | .updateLambdaInstanceConnection instanceId containerId, store =>
    let lambda := store.lambda.modifyInstance instanceId fun i =>
      { i with containerId := containerId }
    (lambda, { store with lambda := lambda })
  | .updateLambdaInstance instance' ends, store =>
    (instance'.instanceId ∈ store.lambda.ids,
      { store with
        lambda := store.lambda.modifyInstance instance'.instanceId fun i =>
          { i with
            status := instance'.status
            invocations := instance'.invocations
            lastStart := instance'.lastStart }
        served := if ends then store.served.erase instance'.instanceId else store.served })
  | .updateLambdaCounters invocations, store =>
    ((), { store with lambda := { store.lambda with invocations := invocations } })
  | .lock, store => ((), { store with mutex := true })
  | .unlock, store => ((), { store with mutex := false })
  | .fail instanceId, store => ((), { store with served := store.served.erase instanceId })

abbrev Program := Thread Call Call.Reply (Option (Nat × String))

/-- What the inspection of a container says, or the text of its exception. -/
inductive Inspection where
  | inspected (ok running : Bool)
  | failed (message : String)
deriving DecidableEq

inductive Creation where
  | created (containerId : String)
  | containerException
  | failed (message : String)
deriving DecidableEq

def createInstance (instanceId : String) (lastStart : Nat) (creation : Creation)
    (onException : String → Program) (onContainerException : Program) (next : Lambda → Program) :
    Program :=
  .call (.addLambdaInstance { instanceId := instanceId, lastStart := lastStart }) fun lambda =>
    match creation with
    | .failed message => onException message
    | .containerException => onContainerException
    | .created containerId =>
      if containerId ≠ "" then
        .call (.updateLambdaInstanceConnection instanceId containerId) next
      else next lambda

/-! ## Starting and stopping -/

/-- A start, with the id that is drawn and how the making of the container ends. -/
structure Start where
  instanceId : String
  lastStart : Nat := 0
  creation : Creation

def startLambda (request : Start) : Program :=
  .call .getLambda fun lambda =>
    if (lambda.instances.length : Int) > lambda.concurrency then .done none
    else
      createInstance request.instanceId request.lastStart request.creation (fun _ => .done none)
        (.done none) fun lambda =>
          .call (.updateLambda .created { lambda with invocations := 0 }) fun _ => .done none

def stopLambdaInstance (instanceId : String) (fails : Bool) : Program :=
  .call .getLambda fun lambda =>
    if fails then .done none
    else
      .call (.updateLambda (.stopped instanceId) (lambda.removeInstance instanceId)) fun _ =>
        .done none

/-! ## Reports of the runtimes -/

structure LambdaStatus where
  instanceId : String
  runtimeStatus : RuntimeStatus
  invocations : Int := 0
  lastStart : Nat := 0

/-- The instance with the id of the report is updated; when there is none, the newest one that
has not been heard of is taken for it. -/
def updateLambdaRuntimeStatus (status : LambdaStatus) : Program :=
  .call .getLambda fun lambda =>
    .call (.updateLambdaInstance
        { instanceId := status.instanceId
          status := status.runtimeStatus
          invocations := status.invocations
          lastStart := status.lastStart } false) fun found =>
      if found then
        .call .getLambda fun refreshed =>
          .call (.updateLambdaCounters refreshed.getTotalInvocations) fun _ => .done none
      else if !lambda.instances.any lambda.isAdoptable then .done none
      else
        let adopted :=
          { lambda with
            instances := rewriteFirst lambda.isAdoptable (fun i =>
              { i with
                instanceId := status.instanceId
                status := status.runtimeStatus
                invocations := status.invocations
                lastStart := status.lastStart }) lambda.instances }
        .call (.updateLambda .adopted { adopted with invocations := adopted.getTotalInvocations })
          fun _ => .done none

/-! ## Checks -/

/-- A container that cannot be inspected is taken for one that does not run. -/
def checkContainerHealth (inspect : String → Inspection) : Program :=
  .call .getLambda fun lambda =>
    let isGone (i : Instance) : Bool :=
      match inspect i.containerId with
      | .inspected ok running => ok && !running
      | .failed _ => true
    if !lambda.instances.any isGone then .done none
    else
      .call (.updateLambda (.checked ((lambda.instances.filter isGone).map (·.instanceId)))
          { lambda with instances := lambda.instances.filter fun i => !isGone i }) fun _ =>
        .done none

def onCheckLambda (inspect : String → Inspection) : Program :=
  .call .getLambda fun lambda =>
    let fails (i : Instance) : Bool :=
      match inspect i.containerId with
      | .inspected _ _ => false
      | .failed _ => true
    let isGone (i : Instance) : Bool :=
      match inspect i.containerId with
      | .inspected _ running => !running
      | .failed _ => false
    if lambda.instances.any fails then .done none
    else if !lambda.instances.any isGone then .done none
    else
      .call (.updateLambda (.checked ((lambda.instances.filter isGone).map (·.instanceId)))
          { lambda with instances := lambda.instances.filter fun i => !isGone i }) fun _ =>
        .done none

/-! ## Invocations -/

/-- An invocation: the id that is drawn for a new instance and how the making of its container
ends, how often the function is looked at again before a deadline has passed, and what the
container and the runtime answer. -/
structure Invocation where
  instanceId : String
  lastStart : Nat := 0
  creation : Creation := .created ""
  startPolls : Nat := 0
  waitPolls : Nat := 0
  inspection : Inspection := .inspected true true
  response : Option (Nat × String) := some (200, "")

def resetInstance (instanceId : String) (answer : Nat × String) : Program :=
  .call .lock fun _ =>
    .call .getLambda fun lambda =>
      .call (.updateLambda (.reset instanceId) (lambda.setStatus instanceId .idle)) fun _ =>
        .call .unlock fun _ => .done (some answer)

/-- An instance whose container does not run, or does not answer, is not given back. -/
def invokeInstance (request : Invocation) (instance' : Instance) : Program :=
  match request.inspection with
  | .failed message =>
    .call (.fail instance'.instanceId) fun _ => .done (some (500, message))
  | .inspected ok running =>
    if ok && !running then
      .call (.updateLambdaInstance { instance' with status := .stopped } true) fun _ =>
        .done (some (503, "Lambda instance is no longer available, please retry"))
    else
      match request.response with
      | none =>
        .call (.updateLambdaInstance { instance' with status := .stopped } true) fun _ =>
          .done (some (503, "Lambda instance is not responding, please retry"))
      | some answer =>
        .call (.updateLambdaInstance
            { instance' with invocations := instance'.invocations + 1 } false) fun found =>
          if found then
            .call .getLambda fun refreshed =>
              .call (.updateLambdaCounters refreshed.getTotalInvocations) fun _ =>
                resetInstance instance'.instanceId answer
          else resetInstance instance'.instanceId answer

/-- The instance is marked, the mutex is left, and the instance is invoked. -/
def claimInstance (request : Invocation) (lambda : Lambda) (instance' : Instance) : Program :=
  .call (.updateLambda (.claim instance'.instanceId)
      (lambda.setStatus instance'.instanceId .running)) fun _ =>
    .call .unlock fun _ => invokeInstance request { instance' with status := .running }

/-- The new instance is looked at until it is idle or the deadline has passed. -/
def awaitStarted (request : Invocation) : Nat → Program
  | 0 =>
    .call .getLambda fun lambda =>
      let instance' := lambda.getInstance request.instanceId
      if instance'.status = .idle then claimInstance request lambda instance'
      else
        .call (.updateLambda (.stuck request.instanceId)
            (lambda.removeInstance request.instanceId)) fun _ =>
          .call .unlock fun _ =>
            .done (some (500, "Lambda instance did not start within timeout"))
  | polls + 1 =>
    .call .getLambda fun lambda =>
      let instance' := lambda.getInstance request.instanceId
      if instance'.status = .idle then claimInstance request lambda instance'
      else awaitStarted request polls

/-- The function is looked at until an instance is idle or the deadline has passed. -/
def awaitIdle (request : Invocation) : Nat → Program
  | 0 =>
    .call .getLambda fun lambda =>
      if lambda.hasIdleInstance then claimInstance request lambda lambda.getIdleInstance
      else
        .call .unlock fun _ =>
          .done (some (503, "No idle Lambda instance available within timeout"))
  | polls + 1 =>
    .call .getLambda fun lambda =>
      if lambda.hasIdleInstance then claimInstance request lambda lambda.getIdleInstance
      else awaitIdle request polls

/-- An idle instance is used; else a new one is started, as long as there are not too many
active ones. -/
def onInvokeLambda (request : Invocation) : Program :=
  .call .getLambda fun lambda =>
    if !lambda.enabled then .done (some (403, "Lambda function is disabled"))
    else
      .call .lock fun _ =>
        .call .getLambda fun lambda =>
          if lambda.hasIdleInstance then claimInstance request lambda lambda.getIdleInstance
          else if (lambda.countActiveInstances : Int) < lambda.concurrency then
            createInstance request.instanceId request.lastStart request.creation
              (fun message => .call .unlock fun _ => .done (some (500, message)))
              (awaitStarted request request.startPolls) fun lambda =>
                .call (.updateLambda .added lambda) fun _ =>
                  awaitStarted request request.startPolls
          else awaitIdle request request.waitPolls

inductive Operation where
  | invoke (request : Invocation)
  | report (status : LambdaStatus)
  | checkHealth (inspect : String → Inspection)
  | check (inspect : String → Inspection)
  | stop (instanceId : String) (fails : Bool)
  | start (request : Start)

def Operation.program : Operation → Program
  | invoke request => onInvokeLambda request
  | report status => updateLambdaRuntimeStatus status
  | checkHealth inspect => checkContainerHealth inspect
  | check inspect => onCheckLambda inspect
  | stop instanceId fails => stopLambdaInstance instanceId fails
  | start request => startLambda request

/-! ## Runs -/

abbrev Pool := Foundation.Pool Store Call Call.Reply (Option (Nat × String))

def start (lambda : Lambda) (operations : List Operation) : Pool :=
  ⟨{ lambda := lambda }, operations.map Operation.program⟩

def move (pool : Pool) (position : Nat) : Pool := pool.move execute position

end AwsMock.Lambdas
