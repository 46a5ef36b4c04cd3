import Mathlib.Data.List.Basic

/-! # Calls with state, exceptions and locks

A call runs on a state while the caller holds some locks. It returns a value,
leaves by an exception, or never returns. State changes made before an
exception persist. Locks are not reentrant: acquiring a lock the caller already
holds blocks forever.
-/

namespace Foundation

/-- Why a call does not return a value: it threw, it waits for a lock that is
never released, its loop has not ended within the given fuel, or what it does
is not defined. -/
inductive Halt (Exn : Type) where
  | exception (exn : Exn)
  | blocked
  | unfinished
  | undefinedBehaviour
deriving DecidableEq, Repr

inductive Outcome (Exn State α : Type) where
  | returns (value : α) (after : State)
  | halts (halt : Halt Exn) (after : State)

/-- A call, as a function of the locks its caller holds and of the state. -/
structure Action (Lock Exn State α : Type) where
  run : List Lock → State → Outcome Exn State α

namespace Outcome

variable {Exn State α β : Type}

def after : Outcome Exn State α → State
  | .returns _ after => after
  | .halts _ after => after

def andThen (outcome : Outcome Exn State α) (next : α → State → Outcome Exn State β) :
    Outcome Exn State β :=
  match outcome with
  | .returns value after => next value after
  | .halts halt after => .halts halt after

@[simp] theorem andThen_returns (value : α) (after : State)
    (next : α → State → Outcome Exn State β) :
    (.returns value after : Outcome Exn State α).andThen next = next value after := rfl

@[simp] theorem andThen_halts (halt : Halt Exn) (after : State)
    (next : α → State → Outcome Exn State β) :
    (.halts halt after : Outcome Exn State α).andThen next = .halts halt after := rfl

@[simp] theorem after_returns (value : α) (state : State) :
    (.returns value state : Outcome Exn State α).after = state := rfl

@[simp] theorem after_halts (halt : Halt Exn) (state : State) :
    (.halts halt state : Outcome Exn State α).after = state := rfl

end Outcome

namespace Action

variable {Lock Exn State α β : Type}

instance : Monad (Action Lock Exn State) where
  pure value := ⟨fun _ state => .returns value state⟩
  bind action next := ⟨fun held state =>
    (action.run held state).andThen fun value after => (next value).run held after⟩

def gets (read : State → α) : Action Lock Exn State α :=
  ⟨fun _ state => .returns (read state) state⟩

def modify (write : State → State) : Action Lock Exn State Unit :=
  ⟨fun _ state => .returns () (write state)⟩

def raise (exn : Exn) : Action Lock Exn State α :=
  ⟨fun _ state => .halts (.exception exn) state⟩

def outOfFuel : Action Lock Exn State α := ⟨fun _ state => .halts .unfinished state⟩

def undefinedBehaviour : Action Lock Exn State α :=
  ⟨fun _ state => .halts .undefinedBehaviour state⟩

/-- Hold `lock` for the duration of `body`. -/
def scopedLock [DecidableEq Lock] (lock : Lock) (body : Action Lock Exn State α) :
    Action Lock Exn State α :=
  ⟨fun held state => if lock ∈ held then .halts .blocked state else body.run (lock :: held) state⟩

def rethrow (translate : Exn → Exn) (action : Action Lock Exn State α) :
    Action Lock Exn State α :=
  ⟨fun held state =>
    match action.run held state with
    | .halts (.exception exn) after => .halts (.exception (translate exn)) after
    | outcome => outcome⟩

def tryCatch (action : Action Lock Exn State α) (handler : Exn → Action Lock Exn State α) :
    Action Lock Exn State α :=
  ⟨fun held state =>
    match action.run held state with
    | .halts (.exception exn) after => (handler exn).run held after
    | outcome => outcome⟩

section Rules

variable {held : List Lock} {state : State}

@[simp] theorem run_pure (value : α) :
    (pure value : Action Lock Exn State α).run held state = .returns value state := rfl

@[simp] theorem run_bind (action : Action Lock Exn State α) (next : α → Action Lock Exn State β) :
    (action >>= next).run held state =
      (action.run held state).andThen fun value after => (next value).run held after := rfl

variable {action : Action Lock Exn State α} {after : State}

theorem run_bind_eq_returns
    {next : α → Action Lock Exn State β} {value : β} :
    (action >>= next).run held state = .returns value after ↔
      ∃ first middle, action.run held state = .returns first middle ∧
        (next first).run held middle = .returns value after := by
  rw [run_bind]
  cases action.run held state with
  | returns first middle => simp
  | halts halt middle => simp

@[simp] theorem run_gets (read : State → α) :
    (gets read : Action Lock Exn State α).run held state = .returns (read state) state := rfl

@[simp] theorem run_modify (write : State → State) :
    (modify write : Action Lock Exn State Unit).run held state = .returns () (write state) := rfl

@[simp] theorem run_raise (exn : Exn) :
    (raise exn : Action Lock Exn State α).run held state = .halts (.exception exn) state := rfl

@[simp] theorem run_outOfFuel :
    (outOfFuel : Action Lock Exn State α).run held state = .halts .unfinished state := rfl

@[simp] theorem run_undefinedBehaviour :
    (undefinedBehaviour : Action Lock Exn State α).run held state =
      .halts .undefinedBehaviour state := rfl

theorem run_scopedLock [DecidableEq Lock] (lock : Lock) (body : Action Lock Exn State α) :
    (scopedLock lock body).run held state =
      if lock ∈ held then .halts .blocked state else body.run (lock :: held) state := rfl

theorem run_scopedLock_free [DecidableEq Lock] {lock : Lock} (hfree : lock ∉ held)
    (body : Action Lock Exn State α) :
    (scopedLock lock body).run held state = body.run (lock :: held) state :=
  if_neg hfree

theorem run_scopedLock_held [DecidableEq Lock] {lock : Lock} (hheld : lock ∈ held)
    (body : Action Lock Exn State α) :
    (scopedLock lock body).run held state = .halts .blocked state :=
  if_pos hheld

theorem run_rethrow (translate : Exn → Exn) (action : Action Lock Exn State α) :
    (rethrow translate action).run held state =
      match action.run held state with
      | .halts (.exception exn) after => .halts (.exception (translate exn)) after
      | outcome => outcome := rfl

theorem run_rethrow_eq_returns {translate : Exn → Exn}
    {value : α} :
    (rethrow translate action).run held state = .returns value after ↔
      action.run held state = .returns value after := by
  rw [run_rethrow]
  cases action.run held state with
  | returns _ _ => rfl
  | halts halt _ => cases halt <;> simp

theorem after_run_bind_pure (action : Action Lock Exn State α) (value : β) :
    ((action >>= fun _ => pure value).run held state).after = (action.run held state).after := by
  rw [run_bind]
  cases action.run held state <;> rfl

@[simp] theorem after_run_rethrow (translate : Exn → Exn) (action : Action Lock Exn State α) :
    ((rethrow translate action).run held state).after = (action.run held state).after := by
  rw [run_rethrow]
  cases action.run held state with
  | returns _ _ => rfl
  | halts halt _ => cases halt <;> rfl

theorem run_tryCatch (action : Action Lock Exn State α) (handler : Exn → Action Lock Exn State α) :
    (tryCatch action handler).run held state =
      match action.run held state with
      | .halts (.exception exn) after => (handler exn).run held after
      | outcome => outcome := rfl

theorem run_tryCatch_of_returns
    {handler : Exn → Action Lock Exn State α} {value : α}
    (hrun : action.run held state = .returns value after) :
    (tryCatch action handler).run held state = .returns value after := by
  rw [run_tryCatch, hrun]

end Rules

end Action

end Foundation
