import Mathlib.Data.List.Basic
import AwsMock.Foundation.Runs

/-! # Threads over a shared state

A thread makes one call after the other, and what it does next depends on the replies. A call
is one atomic step on the state that the threads share. Run alone, a thread is an operation on
the state; run with others, its calls may be interleaved with theirs in any order.
-/

namespace Foundation

/-- A thread is over, or makes a call and goes on with the reply. -/
inductive Thread (Call : Type) (Reply : Call → Type) (Result : Type)
  | done (result : Result)
  | call (request : Call) (next : Reply request → Thread Call Reply Result)

structure Pool (State Call : Type) (Reply : Call → Type) (Result : Type) where
  state : State
  threads : List (Thread Call Reply Result)

variable {State Call Result : Type} {Reply : Call → Type}

namespace Thread

def request : Thread Call Reply Result → Option Call
  | done _ => none
  | call request _ => some request

variable (execute : (request : Call) → State → Reply request × State)

def run : Thread Call Reply Result → State → Result × State
  | done result, state => (result, state)
  | call request next, state =>
    (next (execute request state).1).run (execute request state).2

@[simp] theorem run_done (result : Result) (state : State) :
    (done result : Thread Call Reply Result).run execute state = (result, state) := rfl

@[simp] theorem run_call (request : Call) (next : Reply request → Thread Call Reply Result)
    (state : State) :
    (call request next).run execute state =
      (next (execute request state).1).run execute (execute request state).2 := rfl

def advance : Thread Call Reply Result → State → Thread Call Reply Result × State
  | done result, state => (done result, state)
  | call request next, state => (next (execute request state).1, (execute request state).2)

/-- Every call that the thread may make, whatever the replies, is of a kind. -/
def Calls (kind : Call → Prop) : Thread Call Reply Result → Prop
  | done _ => True
  | call request next => kind request ∧ ∀ reply, (next reply).Calls kind

variable {execute} {kind : Call → Prop} {I : State → Prop}

section Promises

variable (kind goal : Call → Prop) (promise : (request : Call) → Reply request → Prop)
  (fails : Result → Prop)

/-- Every call that the thread makes is of a kind, as long as the replies are as promised. -/
def Keeps : Thread Call Reply Result → Prop
  | done _ => True
  | call request next => kind request ∧ ∀ reply, promise request reply → (next reply).Keeps

/-- The thread makes one of the calls before it ends, unless it fails. -/
def Owes : Thread Call Reply Result → Prop
  | done result => fails result
  | call request next => goal request ∨ ∀ reply, promise request reply → (next reply).Owes

variable {kind goal promise fails} {thread : Thread Call Reply Result} {state : State}
  (hpromise : ∀ request, thread.request = some request → promise request (execute request state).1)
include hpromise

theorem Keeps.advance (hkeeps : thread.Keeps kind promise) :
    (thread.advance execute state).1.Keeps kind promise := by
  cases thread with
  | done result => trivial
  | call request next => exact hkeeps.2 _ (hpromise request rfl)

theorem Owes.advance (howes : thread.Owes goal promise fails) :
    (∃ request, thread.request = some request ∧ goal request) ∨
      (thread.advance execute state).1.Owes goal promise fails := by
  cases thread with
  | done result => exact Or.inr howes
  | call request next =>
    rcases howes with hgoal | hnext
    · exact Or.inl ⟨request, rfl, hgoal⟩
    · exact Or.inr (hnext _ (hpromise request rfl))

end Promises

end Thread

namespace Pool

variable (execute : (request : Call) → State → Reply request × State)

def move (pool : Pool State Call Reply Result) (position : Nat) : Pool State Call Reply Result :=
  match pool.threads[position]? with
  | none => pool
  | some thread =>
    { state := (thread.advance execute pool.state).2
      threads := pool.threads.set position (thread.advance execute pool.state).1 }

def request (pool : Pool State Call Reply Result) (position : Nat) : Option Call :=
  pool.threads[position]?.bind Thread.request

variable {execute} {pool : Pool State Call Reply Result} {position : Nat}

theorem move_of_none (hnone : pool.request position = none) :
    (pool.move execute position).state = pool.state := by
  rw [move]
  rw [request] at hnone
  split
  · rfl
  next thread hthread =>
    rw [hthread, Option.bind_some] at hnone
    cases thread with
    | done result => rfl
    | call request next => cases hnone

theorem move_of_some {request : Call} (hsome : pool.request position = some request) :
    (pool.move execute position).state = (execute request pool.state).2 := by
  rw [Pool.request] at hsome
  rw [move]
  split
  next hthread =>
    rw [hthread] at hsome
    cases hsome
  next thread hthread =>
    rw [hthread, Option.bind_some] at hsome
    cases thread with
    | done result => cases hsome
    | call request next =>
      cases hsome
      rfl

theorem threads_of_some {thread : Thread Call Reply Result}
    (hthread : pool.threads[position]? = some thread) :
    (pool.move execute position).threads =
      pool.threads.set position (thread.advance execute pool.state).1 := by
  rw [move, hthread]

theorem threads_of_none (hnone : pool.threads[position]? = none) :
    pool.move execute position = pool := by
  rw [move, hnone]

theorem move_of_done {result : Result} (hthread : pool.threads[position]? = some (.done result)) :
    pool.move execute position = pool := by
  rw [move, hthread]
  obtain ⟨hposition, hget⟩ := List.getElem?_eq_some_iff.mp hthread
  change Pool.mk pool.state (pool.threads.set position (.done result)) = pool
  rw [← hget, List.set_getElem_self]

theorem move_of_call {request : Call} {next : Reply request → Thread Call Reply Result}
    (hthread : pool.threads[position]? = some (.call request next)) :
    pool.move execute position =
      { state := (execute request pool.state).2
        threads := pool.threads.set position (next (execute request pool.state).1) } := by
  rw [move, hthread]
  rfl

theorem threads_move_of_ne {other : Nat} (hne : other ≠ position) :
    (pool.move execute position).threads[other]? = pool.threads[other]? := by
  rw [move]
  split
  · rfl
  · exact List.getElem?_set_ne (Ne.symm hne)

/-- Every call that a thread of the pool may make is of a kind. -/
def Calls (kind : Call → Prop) (pool : Pool State Call Reply Result) : Prop :=
  ∀ thread ∈ pool.threads, thread.Calls kind

variable {kind : Call → Prop} {I : State → Prop}

theorem Calls.of_request {request : Call} (hcalls : pool.Calls kind)
    (hsome : pool.request position = some request) : kind request := by
  rw [Pool.request] at hsome
  obtain ⟨thread, hthread, hrequest⟩ := Option.bind_eq_some_iff.mp hsome
  cases thread with
  | done result => cases hrequest
  | call other next =>
    cases hrequest
    exact (hcalls _ (List.mem_of_getElem? hthread)).1

theorem Calls.move (hcalls : pool.Calls kind) (position : Nat) :
    (pool.move execute position).Calls kind := by
  rw [Pool.move]
  split
  · exact hcalls
  next thread hthread =>
    intro other hother
    rcases List.mem_or_eq_of_mem_set hother with hold | rfl
    · exact hcalls other hold
    · have hthread := hcalls thread (List.mem_of_getElem? hthread)
      cases thread with
      | done result => exact hthread
      | call request next => exact hthread.2 _

theorem state_of_calls (hcall : ∀ request state, kind request → I state →
      I (execute request state).2)
    (hcalls : pool.Calls kind) (hstate : I pool.state) (position : Nat) :
    I (pool.move execute position).state := by
  cases hrequest : pool.request position with
  | none =>
    rw [move_of_none hrequest]
    exact hstate
  | some request =>
    rw [move_of_some hrequest]
    exact hcall request pool.state (hcalls.of_request hrequest) hstate

end Pool

end Foundation
