import Mathlib.Data.List.Basic

/-! # The scheduler of one-time tasks

Entries are kept under the names of their tasks. An entry posts a handler that starts it,
a delayed one waits for a timer, and when its task has run it posts the removal of what is
then kept under its name. Handlers run in any order, and other threads come in between.
A handler of an entry that has been erased uses memory that is gone.
-/

namespace AwsMock.Scheduling

variable {Body : Type}

/-- A task as it is submitted: its delay in seconds, whether a future is returned, and
whether it throws when it runs. -/
structure Task (Body : Type) where
  name : String
  body : Body
  delay : Int := 0
  waitable : Bool := false
  throws : Bool := false

inductive Result where
  | value
  | exception
  | brokenPromise
deriving DecidableEq, Repr

def Task.result (task : Task Body) : Result := if task.throws then .exception else .value

/-- What is left for the context to run: `wait` is a timer that is armed, `execute` its
completion, `running` a task that goes on, and `shutdown` the removal it posts. -/
inductive Handler where
  | start (id : Nat)
  | wait (id : Nat)
  | execute (id : Nat) (aborted : Bool)
  | running (id : Nat)
  | shutdown (name : String)
deriving DecidableEq, Repr

/-- The scheduler and what has happened so far. Tasks are told by the order in which
they were submitted. -/
structure SchedulerState (Body : Type) where
  tasks : List (Task Body) := []
  entries : List (Nat × Task Body) := []
  handlers : List Handler := []
  runs : List Nat := []
  futures : List (Nat × Result) := []
  shutDown : List Nat := []
  late : List Nat := []

inductive Event (Body : Type) where
  | add (task : Task Body)
  | shutdown (name : String)
  | handle (handler : Handler)

namespace SchedulerState

variable (state : SchedulerState Body)

def findName (name : String) : Option (Nat × Task Body) :=
  state.entries.find? fun entry => entry.2.name = name

def findId (id : Nat) : Option (Nat × Task Body) := state.entries.find? fun entry => entry.1 = id

/-- `AddOneTimeTask` and `AddWaitableOneTimeTask`. A task whose name is taken is dropped,
and the promise of its future with it. -/
def addOneTimeTask (task : Task Body) : SchedulerState Body :=
  if (state.findName task.name).isSome then
    { state with
      tasks := state.tasks ++ [task]
      futures :=
        if task.waitable then state.futures ++ [(state.tasks.length, .brokenPromise)]
        else state.futures }
  else
    { state with
      tasks := state.tasks ++ [task]
      entries := state.entries ++ [(state.tasks.length, task)]
      handlers := state.handlers ++ [.start state.tasks.length] }

def cancel (id : Nat) (handler : Handler) : Handler :=
  if handler = .wait id then .execute id true else handler

/-- `Shutdown` of a name. A promise that has not been kept goes with the entry. -/
def erase (name : String) : SchedulerState Body :=
  match state.findName name with
  | none => state
  | some (id, task) =>
    { state with
      entries := state.entries.filter fun entry => entry.2.name ≠ name
      handlers := state.handlers.map (cancel id)
      futures :=
        if task.waitable ∧ id ∉ state.futures.map Prod.fst then
          state.futures ++ [(id, .brokenPromise)]
        else state.futures }

/-- `Shutdown` of a name by a caller. -/
def shutdown (name : String) : SchedulerState Body :=
  match state.findName name with
  | none => state
  | some (id, _) => { state.erase name with shutDown := state.shutDown ++ [id] }

def begin (id : Nat) : SchedulerState Body :=
  { state with runs := state.runs ++ [id], handlers := state.handlers ++ [.running id] }

def miss (id : Nat) : SchedulerState Body := { state with late := state.late ++ [id] }

def handle : Handler → SchedulerState Body
  | .start id =>
    match state.findId id with
    | none => state.miss id
    | some (_, task) =>
      if task.delay > 0 then { state with handlers := state.handlers ++ [.wait id] }
      else state.begin id
  | .wait id => { state with handlers := state.handlers ++ [.execute id false] }
  | .execute id aborted =>
    match state.findId id with
    | none => state.miss id
    | some _ => if aborted then state else state.begin id
  | .running id =>
    match state.findId id with
    | none => state.miss id
    | some (_, task) =>
      { state with
        futures := if task.waitable then state.futures ++ [(id, task.result)] else state.futures
        handlers := state.handlers ++ [.shutdown task.name] }
  | .shutdown name => state.erase name

section Handling

variable {state} {id : Nat} {entry : Nat × Task Body}

variable (hfound : state.findId id = some entry)
include hfound

theorem handle_start :
    state.handle (.start id) =
      if entry.2.delay > 0 then { state with handlers := state.handlers ++ [.wait id] }
      else state.begin id := by
  rw [handle, hfound]

theorem handle_execute :
    state.handle (.execute id false) = state.begin id := by
  rw [handle, hfound]
  rfl

theorem handle_running :
    state.handle (.running id) =
      { state with
        futures :=
          if entry.2.waitable then state.futures ++ [(id, entry.2.result)] else state.futures
        handlers := state.handlers ++ [.shutdown entry.2.name] } := by
  rw [handle, hfound]

end Handling

def step (event : Event Body) : Option (SchedulerState Body) :=
  match event with
  | .add task => some (state.addOneTimeTask task)
  | .shutdown name => some (state.shutdown name)
  | .handle handler =>
    if handler ∈ state.handlers then
      some ({ state with handlers := state.handlers.erase handler }.handle handler)
    else none

def run : List (Event Body) → SchedulerState Body → Option (SchedulerState Body)
  | [], state => some state
  | event :: events, state => (state.step event).bind (run events)

end SchedulerState

end AwsMock.Scheduling
