import Mathlib.Algebra.Ring.Int.Defs
import AwsMock.Foundation.ListUpdate

/-! # Lambda functions and their instances

A function has instances, each with its container and a status. What the operations below do
not read, such as ports, host names and durations, is left out.
-/

namespace AwsMock.Lambdas

open Foundation

inductive RuntimeStatus where
  | starting | idle | running | failed | stopped | unknown
deriving DecidableEq, Repr

structure Instance where
  instanceId : String := ""
  containerId : String := ""
  status : RuntimeStatus := .unknown
  invocations : Int := 0
  lastStart : Nat := 0
deriving DecidableEq, Repr

structure Lambda where
  instances : List Instance := []
  concurrency : Int := 5
  enabled : Bool := false
  invocations : Int := 0
deriving DecidableEq, Repr

namespace Lambda

variable (lambda : Lambda)

def ids : List String := lambda.instances.map (·.instanceId)

def hasIdleInstance : Bool := lambda.instances.any fun i => i.status = .idle

def getIdleInstance : Instance := (lambda.instances.find? fun i => i.status = .idle).getD {}

def getInstance (instanceId : String) : Instance :=
  (lambda.instances.find? fun i => i.instanceId = instanceId).getD {}

def countActiveInstances : Nat :=
  lambda.instances.countP fun i => i.status ≠ .stopped && i.status ≠ .failed

def getTotalInvocations : Int := (lambda.instances.map (·.invocations)).sum

def removeInstance (instanceId : String) : Lambda :=
  { lambda with instances := lambda.instances.filter fun i => i.instanceId ≠ instanceId }

def modifyInstance (instanceId : String) (change : Instance → Instance) : Lambda :=
  { lambda with
    instances := rewriteFirst (fun i => i.instanceId = instanceId) change lambda.instances }

def setStatus (instanceId : String) (status : RuntimeStatus) : Lambda :=
  lambda.modifyInstance instanceId fun i => { i with status := status }

def isAdoptable (i : Instance) : Bool :=
  i.status = .unknown &&
    lambda.instances.all fun other => other.status ≠ .unknown || other.lastStart ≤ i.lastStart

def IsIdle (instanceId : String) : Prop :=
  ∃ i ∈ lambda.instances, i.instanceId = instanceId ∧ i.status = .idle

instance (instanceId : String) : Decidable (lambda.IsIdle instanceId) :=
  inferInstanceAs (Decidable (∃ i ∈ lambda.instances, _))

end Lambda

end AwsMock.Lambdas
