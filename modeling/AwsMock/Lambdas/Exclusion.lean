import AwsMock.Lambdas.Service

/-! # One invocation at a time

An instance that serves must not become idle in the stored function before it is given back.
What invocations write back they have read under the mutex; the reports, the checks and the
stops write without it.
-/

namespace AwsMock.Lambdas

open Foundation

section Definitions

def ServesOne (pool : Pool) : Prop := pool.state.served.Nodup

def Call.isLock : Call → Bool
  | lock => true
  | _ => false

def RespectsMutex (pool : Pool) (position : Nat) : Prop :=
  ∀ request ∈ pool.request position, request.isLock = true → pool.state.mutex = false

/-- The ids that are drawn are new; a report does not call an instance idle that serves, and
what a start, a check, a stop or an adopting report writes back does not show one as idle. -/
def Call.HeedsService (store : Store) : Call → Prop
  | addLambdaInstance instance' => instance'.instanceId ∉ store.lambda.ids
  | updateLambdaInstance instance' _ =>
    instance'.status = .idle → instance'.instanceId ∉ store.served
  | updateLambda purpose lambda =>
    purpose.isLocked = false →
      (∀ id ∈ store.served, ¬ lambda.IsIdle id) ∧ (purpose = .adopted → lambda.ids.Nodup)
  | _ => True

def HeedsService (pool : Pool) (position : Nat) : Prop :=
  ∀ request ∈ pool.request position, request.HeedsService pool.state

instance (pool : Pool) (position : Nat) : Decidable (RespectsMutex pool position) :=
  inferInstanceAs (Decidable (∀ request ∈ pool.request position, _))

instance (store : Store) : ∀ request : Call, Decidable (request.HeedsService store)
  | .addLambdaInstance _ => inferInstanceAs (Decidable (_ ∉ _))
  | .updateLambdaInstance _ _ => inferInstanceAs (Decidable (_ = _ → _ ∉ _))
  | .updateLambda purpose lambda =>
    inferInstanceAs (Decidable (purpose.isLocked = false →
      (∀ id ∈ store.served, ¬ lambda.IsIdle id) ∧ (purpose = .adopted → lambda.ids.Nodup)))
  | .getLambda | .updateLambdaInstanceConnection _ _ | .updateLambdaCounters _ | .lock
  | .unlock | .fail _ => isTrue trivial

instance (pool : Pool) (position : Nat) : Decidable (HeedsService pool position) :=
  inferInstanceAs (Decidable (∀ request ∈ pool.request position, _))

end Definitions

section Functions

variable {lambda : Lambda} {instanceId other : String}

variable {change : Instance → Instance}

theorem ids_modifyInstance (hchange : ∀ i, (change i).instanceId = i.instanceId) :
    (lambda.modifyInstance instanceId change).ids = lambda.ids :=
  map_rewriteFirst_of_preserved _ fun i _ _ => hchange i

theorem ids_setStatus (status : RuntimeStatus) :
    (lambda.setStatus instanceId status).ids = lambda.ids :=
  ids_modifyInstance fun _ => rfl

theorem nodup_filter (hids : lambda.ids.Nodup) (keeps : Instance → Bool) :
    ({ lambda with instances := lambda.instances.filter keeps } : Lambda).ids.Nodup :=
  (List.Sublist.map _ (@List.filter_sublist _ keeps lambda.instances)).nodup hids

theorem isIdle_of_modifyInstance (hchange : ∀ i, (change i).instanceId = i.instanceId)
    (hidle : (lambda.modifyInstance instanceId change).IsIdle other) :
    lambda.IsIdle other ∨ other = instanceId ∧
      ∃ i ∈ lambda.instances, i.instanceId = instanceId ∧ (change i).status = .idle := by
  obtain ⟨found, hfound, hid, hstatus⟩ := hidle
  rcases of_mem_rewriteFirst hfound with hold | ⟨i, hi, hselect, rfl⟩
  · exact .inl ⟨found, hold, hid, hstatus⟩
  · refine .inr ⟨?_, i, hi, of_decide_eq_true hselect, hstatus⟩
    rw [← hid, hchange]
    exact of_decide_eq_true hselect

theorem isIdle_of_setStatus {status : RuntimeStatus} (hstatus : status ≠ .idle)
    (hidle : (lambda.setStatus instanceId status).IsIdle other) : lambda.IsIdle other := by
  have hchange (i : Instance) : ({ i with status := status } : Instance).instanceId =
      i.instanceId := rfl
  rcases isIdle_of_modifyInstance hchange hidle with hold | ⟨-, i, -, -, hchanged⟩
  · exact hold
  · exact absurd hchanged hstatus

theorem isIdle_of_setStatus_of_ne {status : RuntimeStatus} (hother : other ≠ instanceId)
    (hidle : (lambda.setStatus instanceId status).IsIdle other) : lambda.IsIdle other := by
  have hchange (i : Instance) : ({ i with status := status } : Instance).instanceId =
      i.instanceId := rfl
  rcases isIdle_of_modifyInstance hchange hidle with hold | ⟨heq, -⟩
  · exact hold
  · exact absurd heq hother

theorem isIdle_of_filter {keeps : Instance → Bool}
    (hidle : ({ lambda with instances := lambda.instances.filter keeps } : Lambda).IsIdle other) :
    lambda.IsIdle other := by
  obtain ⟨found, hfound, hid, hstatus⟩ := hidle
  exact ⟨found, List.mem_of_mem_filter hfound, hid, hstatus⟩

theorem not_isIdle_setStatus_running (hids : lambda.ids.Nodup) :
    ¬ (lambda.setStatus instanceId .running).IsIdle instanceId := by
  rintro ⟨found, hfound, hid, hstatus⟩
  obtain ⟨instances, concurrency, enabled, invocations⟩ := lambda
  change (instances.map (·.instanceId)).Nodup at hids
  change found ∈ rewriteFirst (fun i => i.instanceId = instanceId)
    (fun i => { i with status := .running }) instances at hfound
  induction instances with
  | nil => cases hfound
  | cons i instances ih =>
    rw [List.map_cons, List.nodup_cons] at hids
    rw [rewriteFirst_cons] at hfound
    split at hfound
    · next hselect =>
      rcases List.mem_cons.mp hfound with rfl | hrest
      · cases hstatus
      · apply hids.1
        rw [of_decide_eq_true hselect, ← hid]
        exact List.mem_map_of_mem hrest
    · next hselect =>
      rcases List.mem_cons.mp hfound with rfl | hrest
      · exact hselect (decide_eq_true hid)
      · exact ih hids.2 hrest

theorem isIdle_getIdleInstance (hidle : lambda.hasIdleInstance = true) :
    lambda.IsIdle lambda.getIdleInstance.instanceId := by
  unfold Lambda.getIdleInstance
  cases hfind : lambda.instances.find? fun i => i.status = .idle with
  | none =>
    obtain ⟨i, hi, hstatus⟩ := List.any_eq_true.mp hidle
    exact absurd hstatus (List.find?_eq_none.mp hfind i hi)
  | some i =>
    have hstatus : i.status = .idle := by simpa using List.find?_some hfind
    exact ⟨i, List.mem_of_find?_eq_some hfind, rfl, hstatus⟩

theorem isIdle_getInstance (hidle : (lambda.getInstance instanceId).status = .idle) :
    lambda.IsIdle (lambda.getInstance instanceId).instanceId := by
  unfold Lambda.getInstance at hidle ⊢
  cases hfind : lambda.instances.find? fun i => i.instanceId = instanceId with
  | none =>
    rw [hfind] at hidle
    cases hidle
  | some i =>
    rw [hfind] at hidle
    exact ⟨i, List.mem_of_find?_eq_some hfind, rfl, hidle⟩

end Functions

/-! ## What a program writes -/

section Programs

/-- What is written back has different ids, and an instance that is claimed or new is not
idle. -/
def Call.WritesDistinct : Call → Prop
  | updateLambda purpose lambda =>
    (purpose ≠ .adopted → lambda.ids.Nodup) ∧ ∀ id, purpose = .claim id → ¬ lambda.IsIdle id
  | addLambdaInstance instance' => instance'.status ≠ .idle
  | _ => True

def Call.RepliesDistinct : (request : Call) → request.Reply → Prop
  | getLambda, lambda | updateLambda _ _, lambda | addLambdaInstance _, lambda
  | updateLambdaInstanceConnection _ _, lambda => lambda.ids.Nodup
  | updateLambdaInstance _ _, _ | updateLambdaCounters _, _ | lock, _ | unlock, _ | fail _, _ =>
    True

/-- What is written back under the mutex does not show the instance as idle, unless it is the
one that is given back. -/
def Call.Avoids (id : String) : Call → Prop
  | updateLambda (.claim claimed) lambda => claimed ≠ id ∧ ¬ lambda.IsIdle id
  | updateLambda (.reset served) lambda => served ≠ id → ¬ lambda.IsIdle id
  | updateLambda .added lambda | updateLambda (.stuck _) lambda => ¬ lambda.IsIdle id
  | _ => True

def Call.RepliesWithout (id : String) : (request : Call) → request.Reply → Prop
  | getLambda, lambda | updateLambda _ _, lambda | addLambdaInstance _, lambda
  | updateLambdaInstanceConnection _ _, lambda => ¬ lambda.IsIdle id
  | updateLambdaInstance _ _, _ | updateLambdaCounters _, _ | lock, _ | unlock, _ | fail _, _ =>
    True

/-- As long as the instance is not shown as idle, it is not written as idle, until the mutex
is left. -/
def Guards (id : String) : Program → Prop
  | .done _ => True
  | .call request next => request = .unlock ∨ request.Avoids id ∧
      ∀ reply, request.RepliesWithout id reply → Guards id (next reply)

def Call.IsCareful (held : Bool) : Call → Prop
  | lock => held = false
  | unlock => held = true
  | updateLambda purpose _ => purpose.isLocked = true → held = true
  | _ => True

def Call.holds (held : Bool) : Call → Bool
  | lock => true
  | unlock => false
  | _ => held

/-- A call after which an instance may be among those that are guarded. -/
def Call.opens : Call → Bool
  | lock | updateLambda (.claim _) _ => true
  | _ => false

/-- The mutex is taken and left in turns, and from where it is taken every instance is
guarded. -/
def Careful : Bool → Program → Prop
  | held, .done _ => held = false
  | held, .call request next => request.IsCareful held ∧
      (request.opens = true → ∀ reply id, Guards id (next reply)) ∧
      ∀ reply, Careful (request.holds held) (next reply)

/-! ### Invocations -/

variable {request : Invocation} {id : String} {lambda : Lambda} {instance' : Instance}

theorem guards_resetInstance (instanceId : String) (answer : Nat × String) :
    Careful false (resetInstance instanceId answer) := by
  refine ⟨rfl, fun _ _ id => .inr ⟨trivial, fun lambda hlambda => .inr ⟨?_, ?_⟩⟩, ?_⟩
  · intro hne hidle
    exact hlambda (isIdle_of_setStatus_of_ne (Ne.symm hne) hidle)
  · exact fun _ _ => .inl rfl
  · exact fun _ => ⟨trivial, nofun, fun _ => ⟨fun _ => rfl, nofun, fun _ =>
      ⟨rfl, nofun, fun _ => rfl⟩⟩⟩

theorem careful_invokeInstance (instance' : Instance) :
    Careful false (invokeInstance request instance') := by
  unfold invokeInstance
  split
  · exact ⟨trivial, nofun, fun _ => rfl⟩
  · split
    · exact ⟨trivial, nofun, fun _ => rfl⟩
    · split
      · exact ⟨trivial, nofun, fun _ => rfl⟩
      · refine ⟨trivial, nofun, fun found => ?_⟩
        cases found with
        | false => exact guards_resetInstance _ _
        | true =>
          exact ⟨trivial, nofun, fun _ => ⟨trivial, nofun, fun _ => guards_resetInstance _ _⟩⟩

theorem careful_claimInstance (lambda : Lambda) (instance' : Instance) :
    Careful true (claimInstance request lambda instance') :=
  ⟨fun _ => rfl, fun _ _ _ => .inl rfl, fun _ => ⟨rfl, nofun, fun _ => careful_invokeInstance _⟩⟩

theorem guards_claimInstance (hinstance : lambda.IsIdle instance'.instanceId)
    (hlambda : ¬ lambda.IsIdle id) : Guards id (claimInstance request lambda instance') := by
  refine .inr ⟨⟨?_, ?_⟩, fun _ _ => .inl rfl⟩
  · rintro rfl
    exact hlambda hinstance
  · exact fun hidle => hlambda (isIdle_of_setStatus (by decide) hidle)

variable (polls : Nat)

theorem careful_awaitStarted : Careful true (awaitStarted request polls) := by
  induction polls with
  | zero =>
    refine ⟨trivial, nofun, fun lambda => ?_⟩
    dsimp only
    split
    · exact careful_claimInstance _ _
    · exact ⟨fun _ => rfl, nofun, fun _ => ⟨rfl, nofun, fun _ => rfl⟩⟩
  | succ polls ih =>
    refine ⟨trivial, nofun, fun lambda => ?_⟩
    dsimp only
    split
    · exact careful_claimInstance _ _
    · exact ih

theorem guards_awaitStarted : Guards id (awaitStarted request polls) := by
  induction polls with
  | zero =>
    refine .inr ⟨trivial, fun lambda hlambda => ?_⟩
    dsimp only
    split
    · next hidle => exact guards_claimInstance (isIdle_getInstance hidle) hlambda
    · exact .inr ⟨fun hidle => hlambda (isIdle_of_filter hidle), fun _ _ => .inl rfl⟩
  | succ polls ih =>
    refine .inr ⟨trivial, fun lambda hlambda => ?_⟩
    dsimp only
    split
    · next hidle => exact guards_claimInstance (isIdle_getInstance hidle) hlambda
    · exact ih

theorem careful_awaitIdle : Careful true (awaitIdle request polls) := by
  induction polls with
  | zero =>
    refine ⟨trivial, nofun, fun lambda => ?_⟩
    dsimp only
    split
    · exact careful_claimInstance _ _
    · exact ⟨rfl, nofun, fun _ => rfl⟩
  | succ polls ih =>
    refine ⟨trivial, nofun, fun lambda => ?_⟩
    dsimp only
    split
    · exact careful_claimInstance _ _
    · exact ih

theorem guards_awaitIdle : Guards id (awaitIdle request polls) := by
  induction polls with
  | zero =>
    refine .inr ⟨trivial, fun lambda hlambda => ?_⟩
    dsimp only
    split
    · next hidle => exact guards_claimInstance (isIdle_getIdleInstance hidle) hlambda
    · exact .inl rfl
  | succ polls ih =>
    refine .inr ⟨trivial, fun lambda hlambda => ?_⟩
    dsimp only
    split
    · next hidle => exact guards_claimInstance (isIdle_getIdleInstance hidle) hlambda
    · exact ih

variable {onException : String → Program} {onContainerException : Program}

theorem careful_createInstance {instanceId : String} {lastStart : Nat} {creation : Creation}
    {next : Lambda → Program}
    {held : Bool} (hexception : ∀ message, Careful held (onException message))
    (hcontainer : Careful held onContainerException) (hnext : ∀ lambda, Careful held (next lambda)) :
    Careful held
      (createInstance instanceId lastStart creation onException onContainerException next) := by
  refine ⟨trivial, nofun, fun lambda => ?_⟩
  cases creation with
  | failed message => exact hexception message
  | containerException => exact hcontainer
  | created containerId =>
    dsimp only
    split
    · exact ⟨trivial, nofun, hnext⟩
    · exact hnext lambda

theorem guards_createInstance {instanceId : String} {lastStart : Nat} {creation : Creation}
    {next : Lambda → Program}
    (hexception : ∀ message, Guards id (onException message))
    (hcontainer : Guards id onContainerException)
    (hnext : ∀ lambda, ¬ lambda.IsIdle id → Guards id (next lambda)) :
    Guards id
      (createInstance instanceId lastStart creation onException onContainerException next) := by
  refine .inr ⟨trivial, fun lambda hlambda => ?_⟩
  cases creation with
  | failed message => exact hexception message
  | containerException => exact hcontainer
  | created containerId =>
    dsimp only
    split
    · exact .inr ⟨trivial, hnext⟩
    · exact hnext lambda hlambda

theorem careful_onInvokeLambda (request : Invocation) : Careful false (onInvokeLambda request) := by
  refine ⟨trivial, nofun, fun lambda => ?_⟩
  dsimp only
  split
  · rfl
  · refine ⟨rfl, fun _ _ id => .inr ⟨trivial, fun lambda hlambda => ?_⟩,
      fun _ => ⟨trivial, nofun, fun lambda => ?_⟩⟩
    · dsimp only
      split
      · next hidle => exact guards_claimInstance (isIdle_getIdleInstance hidle) hlambda
      · split
        · refine guards_createInstance (fun _ => .inl rfl) (guards_awaitStarted _) ?_
          exact fun lambda hlambda => .inr ⟨hlambda, fun _ _ => guards_awaitStarted _⟩
        · exact guards_awaitIdle _
    · dsimp only
      split
      · exact careful_claimInstance _ _
      · split
        · refine careful_createInstance (fun _ => ⟨rfl, nofun, fun _ => rfl⟩)
            (careful_awaitStarted _) ?_
          exact fun lambda => ⟨fun _ => rfl, nofun, fun _ => careful_awaitStarted _⟩
        · exact careful_awaitIdle _

/-! ### The other operations -/

theorem careful_update {purpose : Purpose} (hpurpose : purpose.isLocked = false) (lambda : Lambda) :
    Careful false (.call (.updateLambda purpose lambda) fun _ => .done none) := by
  refine ⟨fun hlocked => ?_, fun hopens => ?_, fun _ => rfl⟩
  · cases hpurpose.symm.trans hlocked
  · cases purpose with
    | claim id => cases hpurpose
    | _ => cases hopens

theorem careful_startLambda (request : Start) : Careful false (startLambda request) := by
  refine ⟨trivial, nofun, fun lambda => ?_⟩
  dsimp only
  split
  · rfl
  · exact careful_createInstance (fun _ => rfl) rfl fun _ => careful_update rfl _

theorem careful_updateLambdaRuntimeStatus (status : LambdaStatus) :
    Careful false (updateLambdaRuntimeStatus status) := by
  refine ⟨trivial, nofun, fun lambda => ⟨trivial, nofun, fun found => ?_⟩⟩
  dsimp only
  split
  · exact ⟨trivial, nofun, fun _ => ⟨trivial, nofun, fun _ => rfl⟩⟩
  · split
    · rfl
    · exact careful_update rfl _

theorem careful_program (operation : Operation) : Careful false operation.program := by
  cases operation with
  | invoke request => exact careful_onInvokeLambda request
  | report status => exact careful_updateLambdaRuntimeStatus status
  | checkHealth inspect =>
    refine ⟨trivial, nofun, fun lambda => ?_⟩
    dsimp only
    split
    · rfl
    · exact careful_update rfl _
  | check inspect =>
    refine ⟨trivial, nofun, fun lambda => ?_⟩
    dsimp only
    split
    · rfl
    · split
      · rfl
      · exact careful_update rfl _
  | stop instanceId fails =>
    refine ⟨trivial, nofun, fun lambda => ?_⟩
    dsimp only
    split
    · rfl
    · exact careful_update rfl _
  | start request => exact careful_startLambda request

end Programs

/-! ## Different ids -/

section Distinct

abbrev KeepsDistinct (program : Program) : Prop :=
  program.Keeps Call.WritesDistinct Call.RepliesDistinct

variable {request : Invocation} {lambda : Lambda}

theorem keepsDistinct_update {purpose : Purpose} (hclaim : ∀ id, purpose ≠ .claim id)
    (hids : purpose ≠ .adopted → lambda.ids.Nodup) {next : Lambda → Program}
    (hnext : ∀ lambda, KeepsDistinct (next lambda)) :
    KeepsDistinct (.call (.updateLambda purpose lambda) next) :=
  ⟨⟨hids, fun id hid => absurd hid (hclaim id)⟩, fun reply _ => hnext reply⟩

theorem keepsDistinct_resetInstance (instanceId : String) (answer : Nat × String) :
    KeepsDistinct (resetInstance instanceId answer) := by
  refine ⟨trivial, fun _ _ => ⟨trivial, fun lambda hids => ?_⟩⟩
  refine keepsDistinct_update (by rintro _ ⟨⟩) (fun _ => ?_) fun _ => ⟨trivial, fun _ _ => trivial⟩
  rw [ids_setStatus]
  exact hids

theorem keepsDistinct_invokeInstance (instance' : Instance) :
    KeepsDistinct (invokeInstance request instance') := by
  unfold invokeInstance
  split
  · exact ⟨trivial, fun _ _ => trivial⟩
  · split
    · exact ⟨trivial, fun _ _ => trivial⟩
    · split
      · exact ⟨trivial, fun _ _ => trivial⟩
      · refine ⟨trivial, fun found _ => ?_⟩
        cases found with
        | false => exact keepsDistinct_resetInstance _ _
        | true =>
          exact ⟨trivial, fun _ _ => ⟨trivial, fun _ _ => keepsDistinct_resetInstance _ _⟩⟩

theorem keepsDistinct_claimInstance (hids : lambda.ids.Nodup) (instance' : Instance) :
    KeepsDistinct (claimInstance request lambda instance') := by
  refine ⟨⟨fun _ => ?_, ?_⟩, fun _ _ => ⟨trivial, fun _ _ => keepsDistinct_invokeInstance _⟩⟩
  · rw [ids_setStatus]
    exact hids
  · rintro id ⟨⟩
    exact not_isIdle_setStatus_running hids

theorem keepsDistinct_awaitStarted (polls : Nat) : KeepsDistinct (awaitStarted request polls) := by
  induction polls with
  | zero =>
    refine ⟨trivial, fun lambda hids => ?_⟩
    dsimp only
    split
    · exact keepsDistinct_claimInstance hids _
    · exact keepsDistinct_update (by rintro _ ⟨⟩) (fun _ => nodup_filter hids _)
        fun _ => ⟨trivial, fun _ _ => trivial⟩
  | succ polls ih =>
    refine ⟨trivial, fun lambda hids => ?_⟩
    dsimp only
    split
    · exact keepsDistinct_claimInstance hids _
    · exact ih

theorem keepsDistinct_awaitIdle (polls : Nat) : KeepsDistinct (awaitIdle request polls) := by
  induction polls with
  | zero =>
    refine ⟨trivial, fun lambda hids => ?_⟩
    dsimp only
    split
    · exact keepsDistinct_claimInstance hids _
    · exact ⟨trivial, fun _ _ => trivial⟩
  | succ polls ih =>
    refine ⟨trivial, fun lambda hids => ?_⟩
    dsimp only
    split
    · exact keepsDistinct_claimInstance hids _
    · exact ih

theorem keepsDistinct_createInstance {instanceId : String} {lastStart : Nat}
    {creation : Creation} {onException : String → Program} {onContainerException : Program}
    {next : Lambda → Program} (hexception : ∀ message, KeepsDistinct (onException message))
    (hcontainer : KeepsDistinct onContainerException)
    (hnext : ∀ lambda, lambda.ids.Nodup → KeepsDistinct (next lambda)) :
    KeepsDistinct
      (createInstance instanceId lastStart creation onException onContainerException next) := by
  refine ⟨nofun, fun lambda hids => ?_⟩
  cases creation with
  | failed message => exact hexception message
  | containerException => exact hcontainer
  | created containerId =>
    dsimp only
    split
    · exact ⟨trivial, hnext⟩
    · exact hnext lambda hids

theorem keepsDistinct_onInvokeLambda (request : Invocation) :
    KeepsDistinct (onInvokeLambda request) := by
  refine ⟨trivial, fun lambda _ => ?_⟩
  dsimp only
  split
  · trivial
  · refine ⟨trivial, fun _ _ => ⟨trivial, fun lambda hids => ?_⟩⟩
    dsimp only
    split
    · exact keepsDistinct_claimInstance hids _
    · split
      · refine keepsDistinct_createInstance (fun _ => ⟨trivial, fun _ _ => trivial⟩)
          (keepsDistinct_awaitStarted _) fun lambda hids => ?_
        exact keepsDistinct_update (by rintro _ ⟨⟩) (fun _ => hids) fun _ => keepsDistinct_awaitStarted _
      · exact keepsDistinct_awaitIdle _

theorem keepsDistinct_program (operation : Operation) : KeepsDistinct operation.program := by
  cases operation with
  | invoke request => exact keepsDistinct_onInvokeLambda request
  | report status =>
    refine ⟨trivial, fun lambda _ => ⟨trivial, fun found _ => ?_⟩⟩
    dsimp only
    split
    · exact ⟨trivial, fun _ _ => ⟨trivial, fun _ _ => trivial⟩⟩
    · split
      · trivial
      · exact keepsDistinct_update (by rintro _ ⟨⟩) (fun hne => absurd rfl hne) fun _ => trivial
  | checkHealth inspect =>
    refine ⟨trivial, fun lambda hids => ?_⟩
    dsimp only
    split
    · trivial
    · exact keepsDistinct_update (by rintro _ ⟨⟩) (fun _ => nodup_filter hids _) fun _ => trivial
  | check inspect =>
    refine ⟨trivial, fun lambda hids => ?_⟩
    dsimp only
    split
    · trivial
    · split
      · trivial
      · exact keepsDistinct_update (by rintro _ ⟨⟩) (fun _ => nodup_filter hids _) fun _ => trivial
  | stop instanceId fails =>
    refine ⟨trivial, fun lambda hids => ?_⟩
    dsimp only
    split
    · trivial
    · exact keepsDistinct_update (by rintro _ ⟨⟩) (fun _ => nodup_filter hids _) fun _ => trivial
  | start request =>
    refine ⟨trivial, fun lambda _ => ?_⟩
    dsimp only
    split
    · trivial
    · refine keepsDistinct_createInstance (fun _ => trivial) trivial fun lambda hids => ?_
      exact keepsDistinct_update (by rintro _ ⟨⟩) (fun _ => hids) fun _ => trivial

end Distinct

/-! ## Runs -/

section Runs

/-- The ids differ, no instance that serves is idle, and one thread at most holds the mutex: it
guards the instances that serve. -/
structure Excludes (pool : Pool) : Prop where
  distinct : pool.state.lambda.ids.Nodup
  busy : ∀ id ∈ pool.state.served, ¬ pool.state.lambda.IsIdle id
  served : pool.state.served.Nodup
  programs : ∀ program ∈ pool.threads, KeepsDistinct program
  holder : ∃ holder : Option Nat, pool.state.mutex = holder.isSome ∧
    ∀ (position : Nat) (program : Program), pool.threads[position]? = some program →
      Careful (holder = some position) program ∧
        (holder = some position → ∀ id ∈ pool.state.served, Guards id program)

theorem excludes_start {lambda : Lambda} (hids : lambda.ids.Nodup) (operations : List Operation) :
    Excludes (start lambda operations) := by
  refine ⟨hids, fun _ hid => (List.not_mem_nil hid).elim, List.nodup_nil, ?_, none, rfl, ?_⟩
  · intro program hprogram
    obtain ⟨operation, -, rfl⟩ := List.mem_map.mp hprogram
    exact keepsDistinct_program operation
  · intro position program hprogram
    refine ⟨?_, nofun⟩
    obtain ⟨operation, -, rfl⟩ := List.mem_map.mp (List.mem_of_getElem? hprogram)
    exact careful_program operation

variable {request : Call} {store : Store}

theorem distinct_execute (hids : store.lambda.ids.Nodup) (hwrites : request.WritesDistinct)
    (hheeds : request.HeedsService store) : (execute request store).2.lambda.ids.Nodup := by
  cases request with
  | updateLambda purpose lambda =>
    by_cases hadopted : purpose = .adopted
    · subst hadopted
      exact (hheeds rfl).2 rfl
    · exact hwrites.1 hadopted
  | addLambdaInstance instance' =>
    change (List.map (·.instanceId) (store.lambda.instances ++ [instance'])).Nodup
    rw [List.map_append]
    refine List.nodup_append.mpr ⟨hids, List.pairwise_singleton _ _, ?_⟩
    rintro id hold new hnew rfl
    rw [List.map_singleton, List.mem_singleton] at hnew
    subst hnew
    exact hheeds hold
  | updateLambdaInstanceConnection instanceId containerId =>
    refine (ids_modifyInstance ?_).symm ▸ hids
    exact fun _ => rfl
  | updateLambdaInstance instance' ends =>
    refine (ids_modifyInstance ?_).symm ▸ hids
    exact fun _ => rfl
  | _ => exact hids

theorem repliesDistinct_execute (hids : store.lambda.ids.Nodup)
    (hwrites : request.WritesDistinct) (hheeds : request.HeedsService store) :
    request.RepliesDistinct (execute request store).1 := by
  have hnext := distinct_execute hids hwrites hheeds
  cases request with
  | getLambda | updateLambda _ _ | addLambdaInstance _ | updateLambdaInstanceConnection _ _ =>
    exact hnext
  | _ => trivial

theorem repliesWithout_execute {id : String} (hid : ¬ (execute request store).2.lambda.IsIdle id) :
    request.RepliesWithout id (execute request store).1 := by
  cases request with
  | getLambda | updateLambda _ _ | addLambdaInstance _ | updateLambdaInstanceConnection _ _ =>
    exact hid
  | _ => trivial

theorem served_execute (hclaim : ∀ id lambda, request ≠ .updateLambda (.claim id) lambda) :
    ∀ id ∈ (execute request store).2.served, id ∈ store.served := by
  intro id hid
  cases request with
  | updateLambda purpose lambda =>
    cases purpose with
    | claim claimed => exact absurd rfl (hclaim claimed lambda)
    | reset served => exact List.mem_of_mem_erase hid
    | _ => exact hid
  | updateLambdaInstance instance' ends =>
    cases ends with
    | false => exact hid
    | true => exact List.mem_of_mem_erase hid
  | fail instanceId => exact List.mem_of_mem_erase hid
  | _ => exact hid

theorem serves_execute (hbusy : ∀ id ∈ store.served, ¬ store.lambda.IsIdle id)
    (hserved : store.served.Nodup) (hwrites : request.WritesDistinct)
    (hheeds : request.HeedsService store)
    (havoids : ∀ purpose lambda, request = .updateLambda purpose lambda →
      purpose.isLocked = true → ∀ id ∈ store.served, request.Avoids id) :
    (∀ id ∈ (execute request store).2.served, ¬ (execute request store).2.lambda.IsIdle id) ∧
      (execute request store).2.served.Nodup := by
  cases request with
  | updateLambda purpose lambda =>
    cases purpose with
    | claim claimed =>
      have havoids := havoids _ _ rfl rfl
      refine ⟨?_, List.nodup_cons.mpr ⟨fun hmem => (havoids claimed hmem).1 rfl, hserved⟩⟩
      intro id hid
      rcases List.mem_cons.mp hid with rfl | hid
      · exact hwrites.2 id rfl
      · exact (havoids id hid).2
    | reset served =>
      have havoids := havoids _ _ rfl rfl
      refine ⟨?_, hserved.erase served⟩
      intro id hid
      obtain ⟨hne, hid⟩ := hserved.mem_erase_iff.mp hid
      exact havoids id hid hne.symm
    | added => exact ⟨havoids _ _ rfl rfl, hserved⟩
    | stuck instanceId => exact ⟨havoids _ _ rfl rfl, hserved⟩
    | _ => exact ⟨(hheeds rfl).1, hserved⟩
  | addLambdaInstance instance' =>
    refine ⟨?_, hserved⟩
    rintro id hid ⟨found, hfound, hsame, hstatus⟩
    rcases List.mem_append.mp hfound with hold | hnew
    · exact hbusy id hid ⟨found, hold, hsame, hstatus⟩
    · rw [List.mem_singleton.mp hnew] at hstatus
      exact hwrites hstatus
  | updateLambdaInstanceConnection instanceId containerId =>
    refine ⟨fun id hid hidle => hbusy id hid ?_, hserved⟩
    let connect (i : Instance) : Instance := { i with containerId := containerId }
    have hidle : (store.lambda.modifyInstance instanceId connect).IsIdle id := hidle
    have hchange (i : Instance) : (connect i).instanceId = i.instanceId := rfl
    rcases isIdle_of_modifyInstance hchange hidle with hold | ⟨rfl, i, hi, hsame, hstatus⟩
    · exact hold
    · exact ⟨i, hi, hsame, hstatus⟩
  | updateLambdaInstance instance' ends =>
    have hsubset := @served_execute (.updateLambdaInstance instance' ends) store nofun
    refine ⟨?_, ?_⟩
    · intro id hid hidle
      let report (i : Instance) : Instance :=
        { i with
          status := instance'.status
          invocations := instance'.invocations
          lastStart := instance'.lastStart }
      have hidle : (store.lambda.modifyInstance instance'.instanceId report).IsIdle id := hidle
      have hchange (i : Instance) : (report i).instanceId = i.instanceId := rfl
      rcases isIdle_of_modifyInstance hchange hidle with hold | ⟨rfl, i, -, -, hstatus⟩
      · exact hbusy id (hsubset id hid) hold
      · exact hheeds hstatus (hsubset _ hid)
    · cases ends with
      | false => exact hserved
      | true => exact hserved.erase _
  | fail instanceId =>
    exact ⟨fun id hid => hbusy id (List.mem_of_mem_erase hid), hserved.erase instanceId⟩
  | _ => exact ⟨hbusy, hserved⟩

theorem mutex_execute : (execute request store).2.mutex = request.holds store.mutex := by
  cases request with
  | _ => rfl

theorem exists_holder {holder : Option Nat} {position : Nat}
    (hcareful : request.IsCareful (holder = some position))
    (hmutex : request = .lock → holder = none) :
    ∃ holder' : Option Nat, holder'.isSome = request.holds holder.isSome ∧
      decide (holder' = some position) = request.holds (holder = some position) ∧
      ∀ other ≠ position, (holder' = some other ↔ holder = some other) := by
  cases request with
  | lock =>
    refine ⟨some position, rfl, decide_eq_true rfl, fun other hother => ?_⟩
    rw [hmutex rfl]
    exact ⟨fun heq => absurd (Option.some.inj heq).symm hother, nofun⟩
  | unlock =>
    refine ⟨none, rfl, rfl, fun other hother => ?_⟩
    rw [of_decide_eq_true hcareful]
    exact ⟨nofun, fun heq => absurd (Option.some.inj heq).symm hother⟩
  | _ => exact ⟨holder, rfl, rfl, fun _ _ => Iff.rfl⟩

variable {pool : Pool} {position : Nat} {next : request.Reply → Program}

theorem request_of_call (hthread : pool.threads[position]? = some (.call request next)) :
    pool.request position = some request := by
  rw [Foundation.Pool.request, hthread]
  rfl

theorem ne_claim_of_not_held (hcareful : request.IsCareful false) (id : String) (lambda : Lambda) :
    request ≠ .updateLambda (.claim id) lambda := by
  rintro rfl
  cases hcareful rfl

theorem guards_next {held : Bool} (hcareful : Careful held (.call request next))
    (hguards : held = true → ∀ id ∈ store.served, Guards id (.call request next))
    (hbusy : ∀ id ∈ (execute request store).2.served, ¬ (execute request store).2.lambda.IsIdle id)
    (hheld : request.holds held = true) :
    ∀ id ∈ (execute request store).2.served, Guards id (next (execute request store).1) := by
  intro id hid
  by_cases hopens : request.opens = true
  · exact hcareful.2.1 hopens _ id
  · have hold : id ∈ store.served := by
      refine served_execute (fun claimed lambda hclaim => hopens ?_) id hid
      rw [hclaim]
      rfl
    have hheld : held = true ∧ request ≠ .unlock := by
      cases request with
      | lock => exact absurd rfl hopens
      | unlock => cases hheld
      | _ => exact ⟨hheld, nofun⟩
    rcases hguards hheld.1 id hold with hunlock | ⟨-, hnext⟩
    · exact absurd hunlock hheld.2
    · exact hnext _ (repliesWithout_execute (hbusy id hid))

theorem excludes_move (hexcludes : Excludes pool) (hmutex : RespectsMutex pool position)
    (hheeds : HeedsService pool position) : Excludes (move pool position) := by
  unfold move
  cases hthread : pool.threads[position]? with
  | none =>
    rw [Pool.threads_of_none hthread]
    exact hexcludes
  | some program =>
    cases program with
    | done result =>
      rw [Pool.move_of_done hthread]
      exact hexcludes
    | call request next =>
      have hrequest := request_of_call hthread
      have hheeds : request.HeedsService pool.state := hheeds request hrequest
      obtain ⟨hdistinct, hbusy, hserved, hprograms, holder, hheld, hholder⟩ := hexcludes
      obtain ⟨hwrites, hnext⟩ := hprograms _ (List.mem_of_getElem? hthread)
      obtain ⟨hcareful, hguards⟩ := hholder position _ hthread
      obtain ⟨hbusy', hserved'⟩ := serves_execute hbusy hserved hwrites hheeds (by
        rintro purpose lambda rfl hlocked id hid
        rcases hguards (of_decide_eq_true (hcareful.1 hlocked)) id hid with hunlock | hguards
        · cases hunlock
        · exact hguards.1)
      obtain ⟨holder', hheld', hself, hothers⟩ := exists_holder hcareful.1 (by
        rintro rfl
        rw [hmutex .lock hrequest rfl] at hheld
        exact Option.isNone_iff_eq_none.mp (by rw [← Option.not_isSome, ← hheld]; rfl))
      rw [Pool.move_of_call hthread]
      refine ⟨distinct_execute hdistinct hwrites hheeds, hbusy', hserved', ?_, holder', ?_, ?_⟩
      · intro program hprogram
        rcases List.mem_or_eq_of_mem_set hprogram with hold | rfl
        · exact hprograms program hold
        · exact hnext _ (repliesDistinct_execute hdistinct hwrites hheeds)
      · rw [hheld', mutex_execute, hheld]
      · intro other program hprogram
        by_cases hother : other = position
        · subst hother
          obtain rfl : next (execute request pool.state).1 = program := by
            rw [List.getElem?_set_self' , hthread] at hprogram
            exact Option.some.inj hprogram
          refine ⟨?_, fun hholds => ?_⟩
          · rw [hself]
            exact hcareful.2.2 _
          · refine guards_next hcareful (fun h => hguards (of_decide_eq_true h)) hbusy' ?_
            rw [← hself]
            exact decide_eq_true hholds
        · rw [List.getElem?_set_ne (Ne.symm hother)] at hprogram
          obtain ⟨hcareful', hguards'⟩ := hholder other program hprogram
          refine ⟨?_, fun hholds id hid => ?_⟩
          · rw [decide_eq_decide.mpr (hothers other hother)]
            exact hcareful'
          · have hholds := (hothers other hother).mp hholds
            have hnot : decide (holder = some position) = false := by
              rw [hholds]
              exact decide_eq_false fun heq => hother (Option.some.inj heq)
            have hcareful := hcareful.1
            rw [hnot] at hcareful
            exact hguards' hholds id (served_execute (ne_claim_of_not_held hcareful) id hid)

/-- In a run that respects the mutex, and in which nothing that is written without it shows an
instance as idle that serves, no instance serves two invocations. -/
theorem servesOne_of_heeded (lambda : Lambda) (operations : List Operation) (schedule : List Nat)
    (hids : lambda.ids.Nodup)
    (hmutex : Runs.Heeded move RespectsMutex schedule (start lambda operations))
    (hheeds : Runs.Heeded move HeedsService schedule (start lambda operations)) :
    Runs.Always move ServesOne schedule (start lambda operations) := by
  refine Runs.Always.imp (fun _ hexcludes => hexcludes.served) (Runs.always_of_heeded ?_ schedule
    (excludes_start hids operations) (hmutex.and hheeds))
  rintro pool position hexcludes ⟨hmutex, hheeds⟩
  exact excludes_move hexcludes hmutex hheeds

def idleLambda : Lambda :=
  { instances := [{ instanceId := "x", status := .idle }], concurrency := 1, enabled := true }

/-- The second invocation gets the instance when the first one has given it back. -/
theorem servesOne_of_heeded_turns :
    Runs.Always move ServesOne [0, 0, 0, 0, 0, 1, 0, 0, 0, 0, 0, 0, 0, 1, 1, 1, 1]
      (start idleLambda [.invoke { instanceId := "y" }, .invoke { instanceId := "z" }]) :=
  servesOne_of_heeded idleLambda _ _ (by decide) (by decide) (by decide)

/-- A report that the instance is idle, made before the invocation has reached it, lets the next
invocation have the instance too. -/
theorem not_servesOne_report :
    ¬ ∀ (lambda : Lambda) (operations : List Operation) (schedule : List Nat), lambda.ids.Nodup →
      Runs.Heeded move RespectsMutex schedule (start lambda operations) →
        Runs.Always move ServesOne schedule (start lambda operations) := by
  intro hclaim
  have hserves := hclaim idleLambda
    [.invoke { instanceId := "y" }, .report { instanceId := "x", runtimeStatus := .idle },
      .invoke { instanceId := "z" }]
    [0, 0, 0, 0, 0, 1, 1, 2, 2, 2, 2] (by decide) (by decide)
  exact absurd hserves.last (by unfold ServesOne; decide)

end Runs

end AwsMock.Lambdas
