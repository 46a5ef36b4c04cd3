import Mathlib.Logic.Function.Basic
import AwsMock.Foundation.Action

/-! # The surroundings of a service call

Configuration values, clock readings, random strings and the exceptions of the
core library. Clock readings are milliseconds since the epoch, the resolution
of a BSON date. Strings are byte strings, one character for each byte.
-/

namespace AwsMock

open Foundation

/-- A `system_clock::time_point`, in milliseconds. -/
abbrev Time := Int

/-- `std::chrono::seconds`. -/
def seconds (count : Int) : Int := 1000 * count

/-- `system_clock::time_point::min()`: the least nanosecond count, in milliseconds. -/
def timePointMin : Time := -9223372036855

structure Configuration where
  region : String
  accountId : String
  hostname : String
  httpPort : String
deriving DecidableEq, Repr

/-- The random generators, as the sequence of their draws. Draws never repeat,
and no draw is empty. -/
structure RandomSource where
  uuid : Nat → String
  receiptHandle : Nat → String
  uuid_injective : Function.Injective uuid
  uuid_ne_empty : ∀ draw, uuid draw ≠ ""
  receiptHandle_injective : Function.Injective receiptHandle
  receiptHandle_ne_empty : ∀ draw, receiptHandle draw ≠ ""

def RandomSource.growing : RandomSource where
  uuid draw := String.ofList (List.replicate (draw + 1) 'u')
  receiptHandle draw := String.ofList (List.replicate (draw + 1) 'r')
  uuid_injective := by
    intro first second heq
    simpa using congrArg String.length heq
  uuid_ne_empty := by
    intro draw heq
    simpa using congrArg String.length heq
  receiptHandle_injective := by
    intro first second heq
    simpa using congrArg String.length heq
  receiptHandle_ne_empty := by
    intro draw heq
    simpa using congrArg String.length heq

/-- The exception classes of the core library, and those of the standard library. -/
inductive CoreException where
  | badRequest (message : String)
  | container (message : String)
  | core (message : String)
  | database (message : String)
  | dynamoDbParse (message : String)
  | forbidden (message : String)
  | json (message : String)
  | notFound (message : String)
  | service (message : String)
  | unauthorized (message : String)
  | standard (what : String)
deriving DecidableEq, Repr

/-- `what()`, the message of an exception. -/
def CoreException.what : CoreException → String
  | .badRequest message | .container message | .core message | .database message
  | .dynamoDbParse message | .forbidden message | .json message | .notFound message
  | .service message | .unauthorized message | .standard message => message

def CoreException.toService : CoreException → CoreException
  | .database message => .service message
  | other => other

/-- The state a call works on: a store, and how many random strings were drawn. -/
structure World (Store : Type) where
  store : Store
  draws : Nat

abbrev Call (Lock Store α : Type) := Action Lock CoreException (World Store) α

namespace Call

variable {Lock Store α : Type}

def draw : Call Lock Store Nat :=
  ⟨fun _ world => .returns world.draws { world with draws := world.draws + 1 }⟩

/-- Run a loop that draws: from the draws used so far and the store, its result,
the draws used then, and the store it leaves. -/
def loop (body : Nat → Store → α × Nat × Store) : Call Lock Store α :=
  ⟨fun _ world =>
    let result := body world.draws world.store
    .returns result.1 ⟨result.2.2, result.2.1⟩⟩

def ofExcept : Except CoreException α → Call Lock Store α
  | .ok value => pure value
  | .error exn => Action.raise exn

def readStore (read : Store → α) : Call Lock Store α := Action.gets fun world => read world.store

def writeStore (write : Store → Store) : Call Lock Store Unit :=
  Action.modify fun world => { world with store := write world.store }

variable {held : List Lock} {world : World Store}

@[simp] theorem run_draw :
    (draw : Call Lock Store Nat).run held world =
      .returns world.draws { world with draws := world.draws + 1 } := rfl

@[simp] theorem run_loop (body : Nat → Store → α × Nat × Store) :
    (loop body : Call Lock Store α).run held world = .returns (body world.draws world.store).1
        ⟨(body world.draws world.store).2.2, (body world.draws world.store).2.1⟩ := rfl

@[simp] theorem run_ofExcept_ok (value : α) :
    (ofExcept (.ok value) : Call Lock Store α).run held world = .returns value world := rfl

@[simp] theorem run_ofExcept_error (exn : CoreException) :
    (ofExcept (.error exn) : Call Lock Store α).run held world =
      .halts (.exception exn) world := rfl

theorem run_ofExcept_eq_returns {result : Except CoreException α} {value : α}
    {after : World Store} :
    (ofExcept result : Call Lock Store α).run held world = .returns value after ↔
      result = .ok value ∧ after = world := by
  cases result with
  | ok other => simp [eq_comm]
  | error exn => simp

@[simp] theorem run_readStore (read : Store → α) :
    (readStore read : Call Lock Store α).run held world = .returns (read world.store) world := rfl

@[simp] theorem run_writeStore (write : Store → Store) :
    (writeStore write : Call Lock Store Unit).run held world =
      .returns () { world with store := write world.store } := rfl

end Call

end AwsMock
