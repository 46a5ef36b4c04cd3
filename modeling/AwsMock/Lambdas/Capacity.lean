import AwsMock.Lambdas.Exclusion

/-! # How many instances there are

Instances are registered one by one, and the operations write whole copies of the function
back. A copy that is not what is stored any more loses what has been registered since; the
number of instances is compared with the concurrency in two places, on copies as well.
-/

namespace AwsMock.Lambdas

open Foundation

section Definitions

/-- There are not more instances than the concurrency allows. -/
def WithinCapacity (pool : Pool) : Prop :=
  (pool.state.lambda.instances.length : Int) ≤ pool.state.lambda.concurrency

/-- What has been registered is stored, unless its container was found not to run or it was to
be stopped. -/
def LosesNone (pool : Pool) : Prop :=
  ∀ id ∈ pool.state.registered, id ∈ pool.state.lambda.ids

def KeepsInstances (pool : Pool) : Prop := WithinCapacity pool ∧ LosesNone pool

/-- There is room for an instance that is registered, and a copy that is written back has the
instances that are stored but for those that it takes out. -/
def Call.HeedsInstances (store : Store) : Call → Prop
  | addLambdaInstance _ => (store.lambda.instances.length : Int) < store.lambda.concurrency
  | updateLambda purpose lambda => (lambda.ids ++ purpose.removed).Perm store.lambda.ids
  | _ => True

def HeedsInstances (pool : Pool) (position : Nat) : Prop :=
  ∀ request ∈ pool.request position, request.HeedsInstances pool.state

instance (store : Store) : ∀ request : Call, Decidable (request.HeedsInstances store)
  | .addLambdaInstance _ => inferInstanceAs (Decidable (_ < _))
  | .updateLambda purpose lambda =>
    inferInstanceAs (Decidable ((lambda.ids ++ purpose.removed).Perm store.lambda.ids))
  | .getLambda | .updateLambdaInstance _ _ | .updateLambdaInstanceConnection _ _
  | .updateLambdaCounters _ | .lock | .unlock | .fail _ => isTrue trivial

instance (pool : Pool) (position : Nat) : Decidable (HeedsInstances pool position) :=
  inferInstanceAs (Decidable (∀ request ∈ pool.request position, _))

end Definitions

/-! ## The concurrency -/

section Concurrency

def Call.WritesConcurrency (concurrency : Int) : Call → Prop
  | updateLambda _ lambda => lambda.concurrency = concurrency
  | _ => True

def Call.RepliesConcurrency (concurrency : Int) : (request : Call) → request.Reply → Prop
  | getLambda, lambda | updateLambda _ _, lambda | addLambdaInstance _, lambda
  | updateLambdaInstanceConnection _ _, lambda => lambda.concurrency = concurrency
  | updateLambdaInstance _ _, _ | updateLambdaCounters _, _ | lock, _ | unlock, _ | fail _, _ =>
    True

abbrev KeepsConcurrency (concurrency : Int) (program : Program) : Prop :=
  program.Keeps (Call.WritesConcurrency concurrency) (Call.RepliesConcurrency concurrency)

variable {request : Invocation} {lambda : Lambda} {concurrency : Int}

theorem keepsConcurrency_resetInstance (instanceId : String) (answer : Nat × String) :
    KeepsConcurrency concurrency (resetInstance instanceId answer) :=
  ⟨trivial, fun _ _ => ⟨trivial, fun _ hlambda => ⟨hlambda, fun _ _ =>
    ⟨trivial, fun _ _ => trivial⟩⟩⟩⟩

theorem keepsConcurrency_invokeInstance (instance' : Instance) :
    KeepsConcurrency concurrency (invokeInstance request instance') := by
  unfold invokeInstance
  split
  · exact ⟨trivial, fun _ _ => trivial⟩
  · split
    · exact ⟨trivial, fun _ _ => trivial⟩
    · split
      · exact ⟨trivial, fun _ _ => trivial⟩
      · refine ⟨trivial, fun found _ => ?_⟩
        cases found with
        | false => exact keepsConcurrency_resetInstance _ _
        | true =>
          exact ⟨trivial, fun _ _ =>
            ⟨trivial, fun _ _ => keepsConcurrency_resetInstance _ _⟩⟩

theorem keepsConcurrency_claimInstance (hlambda : lambda.concurrency = concurrency)
    (instance' : Instance) :
    KeepsConcurrency concurrency (claimInstance request lambda instance') :=
  ⟨hlambda, fun _ _ => ⟨trivial, fun _ _ => keepsConcurrency_invokeInstance _⟩⟩

theorem keepsConcurrency_awaitStarted (polls : Nat) :
    KeepsConcurrency concurrency (awaitStarted request polls) := by
  induction polls with
  | zero =>
    refine ⟨trivial, fun lambda hlambda => ?_⟩
    dsimp only
    split
    · exact keepsConcurrency_claimInstance hlambda _
    · exact ⟨hlambda, fun _ _ => ⟨trivial, fun _ _ => trivial⟩⟩
  | succ polls ih =>
    refine ⟨trivial, fun lambda hlambda => ?_⟩
    dsimp only
    split
    · exact keepsConcurrency_claimInstance hlambda _
    · exact ih

theorem keepsConcurrency_awaitIdle (polls : Nat) :
    KeepsConcurrency concurrency (awaitIdle request polls) := by
  induction polls with
  | zero =>
    refine ⟨trivial, fun lambda hlambda => ?_⟩
    dsimp only
    split
    · exact keepsConcurrency_claimInstance hlambda _
    · exact ⟨trivial, fun _ _ => trivial⟩
  | succ polls ih =>
    refine ⟨trivial, fun lambda hlambda => ?_⟩
    dsimp only
    split
    · exact keepsConcurrency_claimInstance hlambda _
    · exact ih

theorem keepsConcurrency_createInstance {instanceId : String} {lastStart : Nat}
    {creation : Creation} {onException : String → Program} {onContainerException : Program}
    {next : Lambda → Program}
    (hexception : ∀ message, KeepsConcurrency concurrency (onException message))
    (hcontainer : KeepsConcurrency concurrency onContainerException)
    (hnext : ∀ lambda, lambda.concurrency = concurrency →
      KeepsConcurrency concurrency (next lambda)) :
    KeepsConcurrency concurrency
      (createInstance instanceId lastStart creation onException onContainerException next) := by
  refine ⟨trivial, fun lambda hlambda => ?_⟩
  cases creation with
  | failed message => exact hexception message
  | containerException => exact hcontainer
  | created containerId =>
    dsimp only
    split
    · exact ⟨trivial, hnext⟩
    · exact hnext lambda hlambda

theorem keepsConcurrency_onInvokeLambda (request : Invocation) :
    KeepsConcurrency concurrency (onInvokeLambda request) := by
  refine ⟨trivial, fun lambda _ => ?_⟩
  dsimp only
  split
  · trivial
  · refine ⟨trivial, fun _ _ => ⟨trivial, fun lambda hlambda => ?_⟩⟩
    dsimp only
    split
    · exact keepsConcurrency_claimInstance hlambda _
    · split
      · exact keepsConcurrency_createInstance (fun _ => ⟨trivial, fun _ _ => trivial⟩)
          (keepsConcurrency_awaitStarted _) fun lambda hlambda =>
            ⟨hlambda, fun _ _ => keepsConcurrency_awaitStarted _⟩
      · exact keepsConcurrency_awaitIdle _

theorem keepsConcurrency_program (operation : Operation) :
    KeepsConcurrency concurrency operation.program := by
  cases operation with
  | invoke request => exact keepsConcurrency_onInvokeLambda request
  | report status =>
    refine ⟨trivial, fun lambda hlambda => ⟨trivial, fun found _ => ?_⟩⟩
    dsimp only
    split
    · exact ⟨trivial, fun _ _ => ⟨trivial, fun _ _ => trivial⟩⟩
    · split
      · trivial
      · exact ⟨hlambda, fun _ _ => trivial⟩
  | checkHealth inspect =>
    refine ⟨trivial, fun lambda hlambda => ?_⟩
    dsimp only
    split
    · trivial
    · exact ⟨hlambda, fun _ _ => trivial⟩
  | check inspect =>
    refine ⟨trivial, fun lambda hlambda => ?_⟩
    dsimp only
    split
    · trivial
    · split
      · trivial
      · exact ⟨hlambda, fun _ _ => trivial⟩
  | stop instanceId fails =>
    refine ⟨trivial, fun lambda hlambda => ?_⟩
    dsimp only
    split
    · trivial
    · exact ⟨hlambda, fun _ _ => trivial⟩
  | start request =>
    refine ⟨trivial, fun lambda hlambda => ?_⟩
    dsimp only
    split
    · trivial
    · exact keepsConcurrency_createInstance (fun _ => trivial) trivial fun lambda hlambda =>
        ⟨hlambda, fun _ _ => trivial⟩

end Concurrency

/-! ## Runs -/

section Runs

variable {request : Call} {store : Store} {concurrency : Int}

theorem concurrency_execute (hstore : store.lambda.concurrency = concurrency)
    (hwrites : request.WritesConcurrency concurrency) :
    (execute request store).2.lambda.concurrency = concurrency ∧
      request.RepliesConcurrency concurrency (execute request store).1 := by
  cases request with
  | updateLambda purpose lambda => exact ⟨hwrites, hwrites⟩
  | getLambda | addLambdaInstance _ | updateLambdaInstanceConnection _ _ =>
    exact ⟨hstore, hstore⟩
  | _ => exact ⟨hstore, trivial⟩

theorem length_ids (lambda : Lambda) : lambda.ids.length = lambda.instances.length :=
  List.length_map _

theorem keeps_modifyInstance {change : Instance → Instance}
    (hchange : ∀ i, (change i).instanceId = i.instanceId) (instanceId : String) {lambda : Lambda}
    {registered : List String} (hcapacity : (lambda.instances.length : Int) ≤ lambda.concurrency)
    (hstored : ∀ id ∈ registered, id ∈ lambda.ids) :
    ((lambda.modifyInstance instanceId change).instances.length : Int) ≤ lambda.concurrency ∧
      ∀ id ∈ registered, id ∈ (lambda.modifyInstance instanceId change).ids := by
  have hids : (lambda.modifyInstance instanceId change).ids = lambda.ids :=
    ids_modifyInstance hchange
  refine ⟨?_, hids ▸ hstored⟩
  rw [← length_ids, hids, length_ids]
  exact hcapacity

theorem keeps_execute (hcapacity : (store.lambda.instances.length : Int) ≤ store.lambda.concurrency)
    (hstored : ∀ id ∈ store.registered, id ∈ store.lambda.ids)
    (hwrites : request.WritesConcurrency store.lambda.concurrency)
    (hheeds : request.HeedsInstances store) :
    ((execute request store).2.lambda.instances.length : Int) ≤
        (execute request store).2.lambda.concurrency ∧
      ∀ id ∈ (execute request store).2.registered, id ∈ (execute request store).2.lambda.ids := by
  cases request with
  | updateLambda purpose lambda =>
    change (lambda.ids ++ purpose.removed).Perm store.lambda.ids at hheeds
    change lambda.concurrency = store.lambda.concurrency at hwrites
    have hlength := hheeds.length_eq
    rw [List.length_append, length_ids, length_ids] at hlength
    constructor
    · change (lambda.instances.length : Int) ≤ lambda.concurrency
      omega
    · intro id hid
      obtain ⟨hid, hremoved⟩ := List.mem_filter.mp hid
      rcases List.mem_append.mp (hheeds.mem_iff.mpr (hstored id hid)) with hkept | hgone
      · exact hkept
      · exact absurd hgone (of_decide_eq_true hremoved)
  | addLambdaInstance instance' =>
    change (store.lambda.instances.length : Int) < store.lambda.concurrency at hheeds
    constructor
    · change ((store.lambda.instances ++ [instance']).length : Int) ≤ store.lambda.concurrency
      rw [List.length_append, List.length_singleton]
      omega
    · intro id hid
      change id ∈ (store.lambda.instances ++ [instance']).map (·.instanceId)
      rw [List.map_append]
      rcases List.mem_append.mp hid with hold | hnew
      · exact List.mem_append_left _ (hstored id hold)
      · exact List.mem_append_right _ hnew
  | updateLambdaInstanceConnection instanceId containerId =>
    refine keeps_modifyInstance ?_ instanceId hcapacity hstored
    exact fun _ => rfl
  | updateLambdaInstance instance' ends =>
    refine keeps_modifyInstance ?_ instance'.instanceId hcapacity hstored
    exact fun _ => rfl
  | _ => exact ⟨hcapacity, hstored⟩

variable {pool : Pool} {position : Nat}

theorem keepsInstances_move (hkeeps : KeepsInstances pool) (hprograms : ∀ program ∈ pool.threads,
      KeepsConcurrency pool.state.lambda.concurrency program)
    (hheeds : HeedsInstances pool position) :
    KeepsInstances (move pool position) ∧ ∀ program ∈ (move pool position).threads,
      KeepsConcurrency (move pool position).state.lambda.concurrency program := by
  unfold move
  cases hthread : pool.threads[position]? with
  | none =>
    rw [Pool.threads_of_none hthread]
    exact ⟨hkeeps, hprograms⟩
  | some program =>
    cases program with
    | done result =>
      rw [Pool.move_of_done hthread]
      exact ⟨hkeeps, hprograms⟩
    | call request next =>
      obtain ⟨hwrites, hnext⟩ := hprograms _ (List.mem_of_getElem? hthread)
      obtain ⟨hconcurrency, hreplies⟩ := concurrency_execute rfl hwrites
      have hheeds := hheeds request (request_of_call hthread)
      rw [Pool.move_of_call hthread]
      refine ⟨keeps_execute hkeeps.1 hkeeps.2 hwrites hheeds, ?_⟩
      intro program hprogram
      change KeepsConcurrency (execute request pool.state).2.lambda.concurrency program
      rw [hconcurrency]
      rcases List.mem_or_eq_of_mem_set hprogram with hold | rfl
      · exact hprograms program hold
      · exact hnext _ hreplies

/-- In a run in which instances are registered while there is room, and no copy is written back
that is older than what is stored, there are never too many instances and none is lost. -/
theorem keepsInstances_of_heeded (lambda : Lambda) (operations : List Operation)
    (schedule : List Nat) (hcapacity : (lambda.instances.length : Int) ≤ lambda.concurrency)
    (hheeds : Runs.Heeded move HeedsInstances schedule (start lambda operations)) :
    Runs.Always move KeepsInstances schedule (start lambda operations) := by
  let I (pool : Pool) : Prop := KeepsInstances pool ∧
    ∀ program ∈ pool.threads, KeepsConcurrency pool.state.lambda.concurrency program
  have hstart : I (start lambda operations) := by
    refine ⟨⟨hcapacity, fun _ hid => (List.not_mem_nil hid).elim⟩, fun program hprogram => ?_⟩
    obtain ⟨operation, -, rfl⟩ := List.mem_map.mp hprogram
    exact keepsConcurrency_program operation
  refine Runs.Always.imp (fun _ hkept => hkept.1) (Runs.always_of_heeded ?_ schedule hstart hheeds)
  exact fun pool position hkept hheeds => keepsInstances_move hkept.1 hkept.2 hheeds

def startOf (instanceId : String) : Operation :=
  .start { instanceId := instanceId, creation := .created instanceId }

theorem keepsInstances_of_heeded_start :
    Runs.Always move KeepsInstances [0, 0, 0, 0] (start { concurrency := 1 } [startOf "x"]) :=
  keepsInstances_of_heeded { concurrency := 1 } [startOf "x"] [0, 0, 0, 0] (by decide)
    (by decide)

/-- A start is let through when there are as many instances as there may be; and an instance
that is registered between the read and the write of another start is lost. -/
theorem not_keepsInstances_start :
    (¬ ∀ (lambda : Lambda) (operations : List Operation) (schedule : List Nat),
      (lambda.instances.length : Int) ≤ lambda.concurrency →
        Runs.Always move WithinCapacity schedule (start lambda operations)) ∧
      ¬ ∀ (lambda : Lambda) (operations : List Operation) (schedule : List Nat),
        (lambda.instances.length : Int) ≤ lambda.concurrency →
          Runs.Always move LosesNone schedule (start lambda operations) := by
  constructor
  · intro hclaim
    have hwithin := hclaim { concurrency := 1 } [startOf "x", startOf "y"] [0, 0, 0, 0, 1, 1]
      (by decide)
    exact absurd hwithin.last (by unfold WithinCapacity; decide)
  · intro hclaim
    have hloses := hclaim {} [startOf "x", startOf "y"] [0, 0, 0, 1, 1, 0] (by decide)
    exact absurd hloses.last (by unfold LosesNone; decide)

end Runs

end AwsMock.Lambdas
