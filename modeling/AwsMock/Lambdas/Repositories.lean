import Mathlib.Data.Rat.Defs
import AwsMock.Foundation.KeyedList
import AwsMock.Foundation.Runs
import AwsMock.Lambdas.Entity

/-! # Functions and results in two stores

The memory store keeps functions and results in maps from drawn keys, the document store keeps
two collections. They search a function by different keys, and the memory store deletes
functions where it is asked for results.
-/

namespace AwsMock.Lambdas.Repositories

open Foundation

structure Instance where
  instanceId : String := ""
  status : RuntimeStatus := .unknown
  invocations : Int := 0
  avgDuration : Rat := 0
deriving DecidableEq

structure Lambda where
  region : String := ""
  function : String := ""
  runtime : String := ""
  arn : String := ""
  tags : List (String × String) := []
  instances : List Instance := []
  invocations : Int := 0
  avgDuration : Rat := 0
deriving DecidableEq

structure LambdaResult where
  lambdaArn : String := ""
  responseBody : String := ""
deriving DecidableEq

abbrev Name := String × String

namespace Lambda

variable (lambda : Lambda)

def name : Name := (lambda.region, lambda.function)

def Is (name : Name) (runtime : String) : Prop := lambda.name = name ∧ lambda.runtime = runtime

instance (name : Name) (runtime : String) : Decidable (lambda.Is name runtime) :=
  inferInstanceAs (Decidable (_ ∧ _))

def addInstance (instance' : Instance) : Lambda :=
  { lambda with instances := lambda.instances ++ [instance'] }

def setInstance (instance' : Instance) : Lambda :=
  { lambda with
    instances := rewriteFirst (fun i => i.instanceId = instance'.instanceId) (fun i =>
      { i with
        status := instance'.status
        invocations := instance'.invocations
        avgDuration := instance'.avgDuration }) lambda.instances }

def setCounters (invocations : Int) (avgDuration : Rat) : Lambda :=
  { lambda with invocations := invocations, avgDuration := avgDuration }

end Lambda

def truncate (duration : Rat) : Rat :=
  if 0 ≤ duration then (duration.floor : Int) else (duration.ceil : Int)

def Lambda.toDocument (lambda : Lambda) : Lambda :=
  { lambda with avgDuration := truncate lambda.avgDuration }

abbrev Entry (α : Type) := String × α

/-! ## The memory store -/

structure MemoryRepository where
  lambdas : List (Entry Lambda) := []
  results : List (Entry LambdaResult) := []

namespace MemoryRepository

variable (repository : MemoryRepository)

def insert {α : Type} (place : Nat) (entry : Entry α) (entries : List (Entry α)) :
    List (Entry α) :=
  entries.take place ++ entry :: entries.drop place

def lambdaExists (lambda : Lambda) : Bool :=
  repository.lambdas.any fun entry => entry.2.name = lambda.name

def createLambda (lambda : Lambda) (oid : String) (place : Nat) : MemoryRepository :=
  { repository with lambdas := insert place (oid, lambda) repository.lambdas }

/-- An exception leaves the store as it is, when there is no such function. -/
def updateLambda (lambda : Lambda) : MemoryRepository :=
  { repository with
    lambdas := rewriteFirst (fun entry => entry.2.name = lambda.name)
      (fun entry => (entry.1, lambda)) repository.lambdas }

def createOrUpdateLambda (lambda : Lambda) (oid : String) (place : Nat) : MemoryRepository :=
  if repository.lambdaExists lambda then repository.updateLambda lambda
  else repository.createLambda lambda oid place

def change (name : Name) (runtime : String) (edit : Lambda → Lambda) : MemoryRepository :=
  { repository with
    lambdas := rewriteFirst (fun entry => entry.2.Is name runtime)
      (fun entry => (entry.1, edit entry.2)) repository.lambdas }

def addLambdaInstance (name : Name) (runtime : String) (instance' : Instance) :
    MemoryRepository :=
  repository.change name runtime fun lambda => lambda.addInstance instance'

def updateLambdaInstance (name : Name) (runtime : String) (instance' : Instance) :
    MemoryRepository :=
  repository.change name runtime fun lambda => lambda.setInstance instance'

def updateLambdaCounters (name : Name) (runtime : String) (invocations : Int)
    (avgDuration : Rat) : MemoryRepository :=
  repository.change name runtime fun lambda => lambda.setCounters invocations avgDuration

def createLambdaResult (result : LambdaResult) (oid : String) (place : Nat) : MemoryRepository :=
  { repository with results := insert place (oid, result) repository.results }

def deleteResultsCounter (oid : String) : MemoryRepository :=
  { repository with lambdas := repository.lambdas.filter fun entry => entry.1 ≠ oid }

def deleteResultsCounters (lambdaArn : String) : MemoryRepository :=
  { repository with lambdas := repository.lambdas.filter fun entry => entry.2.arn ≠ lambdaArn }

def deleteLambda (functionName : String) : MemoryRepository :=
  { repository with
    lambdas := repository.lambdas.filter fun entry => entry.2.function ≠ functionName }

end MemoryRepository

/-! ## The document store -/

structure MongoRepository where
  lambdas : List Lambda := []
  results : List (Entry LambdaResult) := []

namespace MongoRepository

variable (repository : MongoRepository)

def lambdaExists (lambda : Lambda) : Bool :=
  repository.lambdas.any fun other => other.Is lambda.name lambda.runtime

def createLambda (lambda : Lambda) : MongoRepository :=
  { repository with lambdas := repository.lambdas ++ [lambda.toDocument] }

def change (name : Name) (runtime : String) (edit : Lambda → Lambda) : MongoRepository :=
  { repository with
    lambdas := rewriteFirst (fun lambda => lambda.Is name runtime) edit repository.lambdas }

def updateLambda (lambda : Lambda) : MongoRepository :=
  repository.change lambda.name lambda.runtime fun _ => lambda.toDocument

def createOrUpdateLambda (lambda : Lambda) : MongoRepository :=
  if repository.lambdaExists lambda then repository.updateLambda lambda
  else repository.createLambda lambda

def addLambdaInstance (name : Name) (runtime : String) (instance' : Instance) :
    MongoRepository :=
  repository.change name runtime fun lambda => lambda.addInstance instance'

def updateLambdaInstance (name : Name) (runtime : String) (instance' : Instance) :
    MongoRepository :=
  { repository with
    lambdas := rewriteFirst (fun lambda => lambda.Is name runtime &&
        lambda.instances.any fun i => i.instanceId = instance'.instanceId)
      (fun lambda => lambda.setInstance instance') repository.lambdas }

def updateLambdaCounters (name : Name) (runtime : String) (invocations : Int)
    (avgDuration : Rat) : MongoRepository :=
  repository.change name runtime fun lambda =>
    lambda.setCounters invocations (truncate avgDuration)

def createLambdaResult (result : LambdaResult) (oid : String) : MongoRepository :=
  { repository with results := repository.results ++ [(oid, result)] }

def deleteResultsCounter (oid : String) : MongoRepository :=
  { repository with results := repository.results.eraseP fun entry => entry.1 = oid }

def deleteResultsCounters (lambdaArn : String) : MongoRepository :=
  { repository with
    results := repository.results.filter fun entry => entry.2.lambdaArn ≠ lambdaArn }

def deleteLambda (functionName : String) : MongoRepository :=
  { repository with
    lambdas := repository.lambdas.filter fun lambda => lambda.function ≠ functionName }

end MongoRepository

/-! ## Operations on both -/

/-- Both stores draw identifiers of their own; a result is called by one name for both. -/
inductive Operation where
  | createOrUpdateLambda (lambda : Lambda) (oid : String) (place : Nat)
  | updateLambda (lambda : Lambda)
  | addLambdaInstance (name : Name) (runtime : String) (instance' : Instance)
  | updateLambdaInstance (name : Name) (runtime : String) (instance' : Instance)
  | updateLambdaCounters (name : Name) (runtime : String) (invocations : Int) (avgDuration : Rat)
  | createLambdaResult (result : LambdaResult) (oid : String) (place : Nat)
  | deleteResultsCounter (oid : String)
  | deleteResultsCounters (lambdaArn : String)
  | deleteLambda (functionName : String)

structure Stores where
  memory : MemoryRepository := {}
  mongo : MongoRepository := {}

def MemoryRepository.step (repository : MemoryRepository) : Operation → MemoryRepository
  | .createOrUpdateLambda lambda oid place => repository.createOrUpdateLambda lambda oid place
  | .updateLambda lambda => repository.updateLambda lambda
  | .addLambdaInstance name runtime i => repository.addLambdaInstance name runtime i
  | .updateLambdaInstance name runtime i => repository.updateLambdaInstance name runtime i
  | .updateLambdaCounters name runtime invocations avgDuration =>
    repository.updateLambdaCounters name runtime invocations avgDuration
  | .createLambdaResult result oid place => repository.createLambdaResult result oid place
  | .deleteResultsCounter oid => repository.deleteResultsCounter oid
  | .deleteResultsCounters lambdaArn => repository.deleteResultsCounters lambdaArn
  | .deleteLambda functionName => repository.deleteLambda functionName

def MongoRepository.step (repository : MongoRepository) : Operation → MongoRepository
  | .createOrUpdateLambda lambda _ _ => repository.createOrUpdateLambda lambda
  | .updateLambda lambda => repository.updateLambda lambda
  | .addLambdaInstance name runtime i => repository.addLambdaInstance name runtime i
  | .updateLambdaInstance name runtime i => repository.updateLambdaInstance name runtime i
  | .updateLambdaCounters name runtime invocations avgDuration =>
    repository.updateLambdaCounters name runtime invocations avgDuration
  | .createLambdaResult result oid _ => repository.createLambdaResult result oid
  | .deleteResultsCounter oid => repository.deleteResultsCounter oid
  | .deleteResultsCounters lambdaArn => repository.deleteResultsCounters lambdaArn
  | .deleteLambda functionName => repository.deleteLambda functionName

def step (stores : Stores) (operation : Operation) : Stores :=
  ⟨stores.memory.step operation, stores.mongo.step operation⟩

end AwsMock.Lambdas.Repositories
