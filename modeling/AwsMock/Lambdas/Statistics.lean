import Mathlib.Algebra.Order.Field.Rat
import Mathlib.Data.Rat.Defs
import AwsMock.Lambdas.Entity

/-! # Statistics of invocations

An instance counts its invocations and keeps the mean of their durations, and the function has
the total of both over its instances. Calls of `OnInvokeLambda` are followed step by step, a
step being a call of the repository or of the mutex. Containers do not fail, and no runtime
reports its status.
-/

namespace AwsMock.Lambdas.Statistics

open Foundation

structure Instance where
  instanceId : String := ""
  status : RuntimeStatus := .unknown
  invocations : Int := 0
  avgDuration : ℚ := 0
deriving DecidableEq

structure Lambda where
  instances : List Instance := []
  concurrency : Int := 5
  enabled : Bool := true
  invocations : Int := 0
  avgDuration : Int := 0
deriving DecidableEq

def truncate (q : ℚ) : Int := q.num.tdiv q.den

namespace Lambda

variable (lambda : Lambda)

def ids : List String := lambda.instances.map (·.instanceId)

def hasIdleInstance : Bool := lambda.instances.any fun i => i.status = .idle

def getIdleInstance : Instance := (lambda.instances.find? fun i => i.status = .idle).getD {}

def getInstance (instanceId : String) : Instance :=
  (lambda.instances.find? fun i => i.instanceId = instanceId).getD {}

def countActiveInstances : Nat :=
  lambda.instances.countP fun i => i.status ≠ .stopped && i.status ≠ .failed

def getTotalInvocations : Int := (lambda.instances.map (·.invocations)).sum

def weightedSum : ℚ := (lambda.instances.map fun i => i.avgDuration * (i.invocations : ℚ)).sum

def getAvgDuration : Int :=
  if lambda.getTotalInvocations = 0 then 0
  else truncate (lambda.weightedSum / lambda.getTotalInvocations)

def addInstance (instance' : Instance) : Lambda :=
  { lambda with instances := lambda.instances ++ [instance'] }

def removeInstance (instanceId : String) : Lambda :=
  { lambda with instances := lambda.instances.filter fun i => i.instanceId ≠ instanceId }

def modifyInstance (instanceId : String) (change : Instance → Instance) : Lambda :=
  { lambda with
    instances := rewriteFirst (fun i => i.instanceId = instanceId) change lambda.instances }

def setStatus (instanceId : String) (status : RuntimeStatus) : Lambda :=
  lambda.modifyInstance instanceId fun i => { i with status := status }

def setCounters (invocations avgDuration : Int) : Lambda :=
  { lambda with invocations := invocations, avgDuration := avgDuration }

end Lambda

def Instance.fold (instance' : Instance) (duration : Int) : Instance :=
  { instance' with
    avgDuration :=
      (instance'.avgDuration * instance'.invocations + duration) / (instance'.invocations + 1)
    invocations := instance'.invocations + 1 }

/-- What is drawn and measured during a call, and how often it looks at the function before a
deadline has passed. -/
structure Invocation where
  instanceId : String
  startPolls : Nat := 0
  waitPolls : Nat := 0
  duration : Int := 0
deriving DecidableEq

/-- How far a call is, with its local variables: the copy of the function that it has read, and
the instance that it has chosen. -/
inductive Phase where
  | begin
  | entering
  | choosing
  | registering
  | connecting
  | adding (lambda : Lambda)
  | awaitingStart (polls : Nat)
  | removing (lambda : Lambda)
  | awaitingIdle (polls : Nat)
  | claiming (lambda : Lambda) (instance' : Instance)
  | leaving (instance' : Instance)
  | serving (instance' : Instance)
  | refreshing (instanceId : String)
  | counting (instanceId : String) (invocations avgDuration : Int)
  | returning (instanceId : String)
  | rereading (instanceId : String)
  | resetting (lambda : Lambda) (instanceId : String)
  | releasing
  | done
deriving DecidableEq

/-- The stored function and its mutex. The history says which instance has served for how long;
it is there for the statements. -/
structure Store where
  lambda : Lambda
  mutex : Bool := false
  history : List (String × Int) := []
deriving DecidableEq

namespace Store

variable (store : Store)

def write (lambda : Lambda) : Store := { store with lambda := lambda }

/-- `updateLambdaInstance` after an invocation. -/
def updateLambdaInstance (instance' : Instance) (duration : Int) : Store :=
  { store with
    lambda := store.lambda.modifyInstance instance'.instanceId fun i =>
      { i with
        status := instance'.status
        invocations := instance'.invocations
        avgDuration := instance'.avgDuration }
    history := store.history ++ [(instance'.instanceId, duration)] }

end Store

/-- The next step of a call. A call that waits for the mutex stays where it is. -/
def advance (request : Invocation) (phase : Phase) (store : Store) : Phase × Store :=
  match phase with
  | .begin => (if store.lambda.enabled then .entering else .done, store)
  | .entering =>
    if store.mutex then (.entering, store) else (.choosing, { store with mutex := true })
  | .choosing =>
    (if store.lambda.hasIdleInstance then
      .claiming store.lambda store.lambda.getIdleInstance
    else if (store.lambda.countActiveInstances : Int) < store.lambda.concurrency then
      .registering
    else .awaitingIdle request.waitPolls, store)
  | .registering =>
    (.connecting, store.write (store.lambda.addInstance { instanceId := request.instanceId }))
  | .connecting => (.adding store.lambda, store)
  | .adding lambda => (.awaitingStart request.startPolls, store.write lambda)
  | .awaitingStart polls =>
    let instance' := store.lambda.getInstance request.instanceId
    (if instance'.status = .idle then .claiming store.lambda instance'
    else
      match polls with
      | 0 => .removing store.lambda
      | polls + 1 => .awaitingStart polls, store)
  | .removing lambda => (.releasing, store.write (lambda.removeInstance request.instanceId))
  | .awaitingIdle polls =>
    (if store.lambda.hasIdleInstance then
      .claiming store.lambda store.lambda.getIdleInstance
    else
      match polls with
      | 0 => .releasing
      | polls + 1 => .awaitingIdle polls, store)
  | .claiming lambda instance' =>
    (.leaving { instance' with status := .running },
      store.write (lambda.setStatus instance'.instanceId .running))
  | .leaving instance' => (.serving instance', { store with mutex := false })
  | .serving instance' =>
    (if instance'.instanceId ∈ store.lambda.ids then .refreshing instance'.instanceId
    else .returning instance'.instanceId,
      store.updateLambdaInstance (instance'.fold request.duration) request.duration)
  | .refreshing instanceId =>
    (.counting instanceId store.lambda.getTotalInvocations store.lambda.getAvgDuration, store)
  | .counting instanceId invocations avgDuration =>
    (.returning instanceId, store.write (store.lambda.setCounters invocations avgDuration))
  | .returning instanceId =>
    if store.mutex then (.returning instanceId, store)
    else (.rereading instanceId, { store with mutex := true })
  | .rereading instanceId => (.resetting store.lambda instanceId, store)
  | .resetting lambda instanceId => (.releasing, store.write (lambda.setStatus instanceId .idle))
  | .releasing => (.done, { store with mutex := false })
  | .done => (.done, store)

structure State where
  store : Store
  calls : List (Invocation × Phase)

def step (state : State) (position : Nat) : State :=
  match state.calls[position]? with
  | none => state
  | some (request, phase) =>
    { store := (advance request phase state.store).2
      calls := state.calls.set position (request, (advance request phase state.store).1) }

end AwsMock.Lambdas.Statistics
