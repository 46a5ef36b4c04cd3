import Mathlib.Data.List.Nodup
import Mathlib.Tactic.Ring
import AwsMock.Foundation.Runs
import AwsMock.Lambdas.Statistics

/-! # Counts and means of the invocations

The statistics of the instances and of the function are right when all calls have returned,
as long as no call writes back a copy of the function that another one has changed since it was
read, and as long as the total that a call writes is that of the stored instances and their mean
is a whole number. An instance serves one call at a time: whoever owns an instance sees to it that
it is not idle in the stored function.
-/

namespace AwsMock.Lambdas.Statistics

open Foundation

section Definitions

def durations (history : List (String × Int)) (instanceId : String) : List Int :=
  (history.filter fun entry => entry.1 = instanceId).map Prod.snd

def mean (values : List Int) : ℚ := (values.sum : ℚ) / (values.length : ℚ)

/-- The count and the mean of an instance are those of the calls that it has served. -/
def IsAccurate (history : List (String × Int)) (instance' : Instance) : Prop :=
  instance'.invocations = (durations history instance'.instanceId).length ∧
    instance'.avgDuration = mean (durations history instance'.instanceId)

/-- The total and the weighted mean of a function are those of its instances. -/
def IsTotal (lambda : Lambda) (invocations avgDuration : Int) : Prop :=
  invocations = lambda.getTotalInvocations ∧
    (avgDuration : ℚ) = lambda.weightedSum / lambda.getTotalInvocations

def IsCounted (lambda : Lambda) : Prop := IsTotal lambda lambda.invocations lambda.avgDuration

/-- Once all calls have returned, all statistics are right. -/
def HasStatistics (state : State) : Prop :=
  (∀ call ∈ state.calls, call.2 = .done) →
    (∀ i ∈ state.store.lambda.instances, IsAccurate state.store.history i) ∧
      IsCounted state.store.lambda

/-- The copy that is written back is the stored function, and what is written as the total is the
total of its instances. -/
def Phase.Heeds (stored : Lambda) : Phase → Prop
  | adding lambda | removing lambda | claiming lambda _ | resetting lambda _ => lambda = stored
  | counting _ invocations avgDuration => IsTotal stored invocations avgDuration
  | _ => True

def Heeds (state : State) (position : Nat) : Prop :=
  ∀ call ∈ state.calls[position]?, call.2.Heeds state.store.lambda

instance (history : List (String × Int)) (instance' : Instance) :
    Decidable (IsAccurate history instance') :=
  inferInstanceAs (Decidable (_ ∧ _))

instance (lambda : Lambda) (invocations avgDuration : Int) :
    Decidable (IsTotal lambda invocations avgDuration) :=
  inferInstanceAs (Decidable (_ ∧ _))

instance (stored : Lambda) : ∀ phase : Phase, Decidable (phase.Heeds stored)
  | .adding _ | .removing _ | .claiming _ _ | .resetting _ _ => inferInstanceAs (Decidable (_ = _))
  | .counting _ _ _ => inferInstanceAs (Decidable (IsTotal _ _ _))
  | .begin | .entering | .choosing | .registering | .connecting | .awaitingStart _
  | .awaitingIdle _ | .leaving _ | .serving _ | .refreshing _ | .returning _ | .rereading _
  | .releasing | .done => isTrue trivial

instance (state : State) (position : Nat) : Decidable (Heeds state position) :=
  inferInstanceAs (Decidable (∀ call ∈ state.calls[position]?, _))

/-- The calls have not begun, the ids that they will draw are new, and the statistics are right. -/
structure IsStart (state : State) : Prop where
  begin : ∀ call ∈ state.calls, call.2 = .begin
  distinct : (state.calls.map fun call => call.1.instanceId).Nodup
  unknown : ∀ call ∈ state.calls, call.1.instanceId ∉ state.store.lambda.ids ∧
    durations state.store.history call.1.instanceId = []
  ids : state.store.lambda.ids.Nodup
  accurate : ∀ i ∈ state.store.lambda.instances, IsAccurate state.store.history i
  counted : IsCounted state.store.lambda

end Definitions

section Means

variable {history : List (String × Int)} {instanceId other : String}

theorem durations_append_self (duration : Int) :
    durations (history ++ [(instanceId, duration)]) instanceId =
      durations history instanceId ++ [duration] := by
  unfold durations
  rw [List.filter_append, List.map_append, List.filter_cons_of_pos (by simp)]
  rfl

theorem durations_append_of_ne (duration : Int) (hne : other ≠ instanceId) :
    durations (history ++ [(instanceId, duration)]) other = durations history other := by
  unfold durations
  rw [List.filter_append, List.filter_cons_of_neg (by simpa using Ne.symm hne), List.filter_nil,
    List.append_nil]

theorem mean_mul_length (values : List Int) : mean values * (values.length : ℚ) = values.sum := by
  unfold mean
  cases values with
  | nil => simp
  | cons value values =>
    exact div_mul_cancel₀ _ (Nat.cast_ne_zero.mpr (Nat.succ_ne_zero values.length))

theorem isAccurate_fold {instance' : Instance} (haccurate : IsAccurate history instance')
    (duration : Int) :
    IsAccurate (history ++ [(instance'.instanceId, duration)]) (instance'.fold duration) := by
  obtain ⟨hcount, hmean⟩ := haccurate
  change _ = _ ∧ _ = _
  unfold Instance.fold
  dsimp only
  rw [durations_append_self]
  constructor
  · rw [hcount, List.length_append]
    rfl
  · rw [hmean, hcount, Int.cast_natCast, mean_mul_length]
    unfold mean
    rw [List.sum_append, List.length_append]
    push_cast
    simp

end Means

section Functions

variable {lambda : Lambda} {instanceId : String} {change : Instance → Instance}

theorem instances_modifyInstance (hids : lambda.ids.Nodup) :
    (lambda.modifyInstance instanceId change).instances =
      lambda.instances.map fun i => if i.instanceId = instanceId then change i else i := by
  unfold Lambda.modifyInstance
  dsimp only
  rw [rewriteFirst_eq_map hids]
  refine List.map_congr_left fun i hi => ?_
  cases hfind : lambda.instances.find? fun i => i.instanceId = instanceId with
  | none =>
    have hne : i.instanceId ≠ instanceId := by
      simpa using List.find?_eq_none.mp hfind i hi
    rw [if_neg hne]
    rfl
  | some found =>
    have hid : found.instanceId = instanceId := of_decide_eq_true
      (List.find?_some (p := fun i : Instance => i.instanceId = instanceId) hfind)
    rw [Option.map_some, hid]
    simp only [Option.some.injEq, eq_comm]

theorem mem_modifyInstance (hids : lambda.ids.Nodup) {i : Instance}
    (hmem : i ∈ (lambda.modifyInstance instanceId change).instances) :
    (i ∈ lambda.instances ∧ i.instanceId ≠ instanceId) ∨
      ∃ old ∈ lambda.instances, old.instanceId = instanceId ∧ i = change old := by
  rw [instances_modifyInstance hids] at hmem
  obtain ⟨old, hold, rfl⟩ := List.mem_map.mp hmem
  by_cases hid : old.instanceId = instanceId
  · rw [if_pos hid]
    exact .inr ⟨old, hold, hid, rfl⟩
  · rw [if_neg hid]
    exact .inl ⟨hold, hid⟩

theorem ids_modifyInstance (hchange : ∀ i, (change i).instanceId = i.instanceId) :
    (lambda.modifyInstance instanceId change).ids = lambda.ids :=
  map_rewriteFirst_of_preserved _ fun i _ _ => hchange i

variable (status : RuntimeStatus)

theorem getTotalInvocations_setStatus :
    (lambda.setStatus instanceId status).getTotalInvocations = lambda.getTotalInvocations :=
  congrArg List.sum (map_rewriteFirst_of_preserved _ fun _ _ _ => rfl)

theorem weightedSum_setStatus :
    (lambda.setStatus instanceId status).weightedSum = lambda.weightedSum :=
  congrArg List.sum (map_rewriteFirst_of_preserved _ fun _ _ _ => rfl)

theorem isCounted_setStatus (hcounted : IsCounted lambda) :
    IsCounted (lambda.setStatus instanceId status) := by
  unfold IsCounted IsTotal at *
  rw [getTotalInvocations_setStatus, weightedSum_setStatus]
  exact hcounted

theorem isCounted_addInstance {instance' : Instance} (hcount : instance'.invocations = 0)
    (hcounted : IsCounted lambda) : IsCounted (lambda.addInstance instance') := by
  have htotal : (lambda.addInstance instance').getTotalInvocations =
      lambda.getTotalInvocations := by
    unfold Lambda.addInstance Lambda.getTotalInvocations
    simp [hcount]
  have hsum : (lambda.addInstance instance').weightedSum = lambda.weightedSum := by
    unfold Lambda.addInstance Lambda.weightedSum
    simp [hcount]
  unfold IsCounted IsTotal at *
  rw [htotal, hsum]
  exact hcounted

theorem sum_map_filter {α M : Type} [AddCommMonoid M] {keep : α → Bool} {f : α → M} {xs : List α}
    (hzero : ∀ x ∈ xs, keep x = false → f x = 0) :
    ((xs.filter keep).map f).sum = (xs.map f).sum := by
  induction xs with
  | nil => rfl
  | cons x xs ih =>
    have hrest := ih fun y hy => hzero y (List.mem_cons_of_mem x hy)
    cases hkeep : keep x with
    | true =>
      rw [List.filter_cons_of_pos hkeep, List.map_cons, List.map_cons, List.sum_cons,
        List.sum_cons, hrest]
    | false =>
      rw [List.filter_cons_of_neg (by rw [hkeep]; exact Bool.false_ne_true), hrest,
        List.map_cons, List.sum_cons, hzero x List.mem_cons_self hkeep, zero_add]

theorem isCounted_removeInstance
    (hcount : ∀ i ∈ lambda.instances, i.instanceId = instanceId → i.invocations = 0)
    (hcounted : IsCounted lambda) : IsCounted (lambda.removeInstance instanceId) := by
  have htotal : (lambda.removeInstance instanceId).getTotalInvocations =
      lambda.getTotalInvocations :=
    sum_map_filter fun i hi hremoved => hcount i hi (by simpa using hremoved)
  have hsum : (lambda.removeInstance instanceId).weightedSum = lambda.weightedSum :=
    sum_map_filter fun i hi hremoved => by
      rw [hcount i hi (by simpa using hremoved), Int.cast_zero, mul_zero]
  unfold IsCounted IsTotal at *
  rw [htotal, hsum]
  exact hcounted

end Functions

/-! ## Who owns an instance -/

section Ownership

abbrev CallState := Invocation × Phase

/-- The instance that a call sees to: the one that it has chosen, or the one that it may still
make or has made. -/
def own (call : CallState) : Option String :=
  match call.2 with
  | .begin | .entering | .choosing | .registering | .connecting | .adding _ | .awaitingStart _
  | .removing _ => some call.1.instanceId
  | .leaving instance' | .serving instance' => some instance'.instanceId
  | .refreshing instanceId | .counting instanceId _ _ | .returning instanceId
  | .rereading instanceId | .resetting _ instanceId => some instanceId
  | .awaitingIdle _ | .claiming _ _ | .releasing | .done => none

def isPending : Phase → Bool
  | .refreshing _ | .counting _ _ _ => true
  | _ => false

def IsInformed (store : Store) (call : CallState) : Prop :=
  match call.2 with
  | .begin | .entering | .choosing | .registering =>
    (∀ i ∈ store.lambda.instances, i.instanceId ≠ call.1.instanceId) ∧
      durations store.history call.1.instanceId = []
  | .connecting | .adding _ | .awaitingStart _ | .removing _ =>
    durations store.history call.1.instanceId = []
  | .claiming lambda instance' => instance' ∈ lambda.instances ∧ instance'.status = .idle
  | .leaving instance' | .serving instance' =>
    instance'.status = .running ∧ IsAccurate store.history instance'
  | _ => True

structure IsGuarded (store : Store) (call : CallState) : Prop where
  notIdle : ∀ id ∈ own call, ∀ i ∈ store.lambda.instances, i.instanceId = id → i.status ≠ .idle
  informed : IsInformed store call

structure Sound (state : State) : Prop where
  ids : state.store.lambda.ids.Nodup
  accurate : ∀ i ∈ state.store.lambda.instances, IsAccurate state.store.history i
  guarded : ∀ (position : Nat) (call : CallState), state.calls[position]? = some call →
    IsGuarded state.store call
  distinct : ∀ (first second : Nat) (a b : CallState), state.calls[first]? = some a →
    state.calls[second]? = some b → first ≠ second → ∀ id ∈ own a, own b ≠ some id
  counted : IsCounted state.store.lambda ∨
    ∃ (position : Nat) (call : CallState), state.calls[position]? = some call ∧
      isPending call.2 = true

structure Touches (touched : Option String) (store next : Store) : Prop where
  instances : ∀ i ∈ next.lambda.instances, some i.instanceId ≠ touched → i ∈ store.lambda.instances
  durations : ∀ id, some id ≠ touched → durations next.history id = durations store.history id

variable {store next : Store} {touched : Option String} {call : CallState}

theorem IsGuarded.of_touches (hguarded : IsGuarded store call) (htouches : Touches touched store next)
    (hother : ∀ id ∈ own call, some id ≠ touched) : IsGuarded next call := by
  obtain ⟨hidle, hinformed⟩ := hguarded
  refine ⟨fun id hid i hi heq => ?_, ?_⟩
  · subst heq
    exact hidle _ hid i (htouches.instances i hi (hother _ hid)) rfl
  · obtain ⟨request, phase⟩ := call
    have hfresh (hown : own (request, phase) = some request.instanceId)
        (hknown : (∀ i ∈ store.lambda.instances, i.instanceId ≠ request.instanceId) ∧
          durations store.history request.instanceId = []) :
        (∀ i ∈ next.lambda.instances, i.instanceId ≠ request.instanceId) ∧
          durations next.history request.instanceId = [] := by
      have hne := hother _ hown
      refine ⟨fun i hi heq => ?_, (htouches.durations _ hne).trans hknown.2⟩
      exact hknown.1 i (htouches.instances i hi (by rw [heq]; exact hne)) heq
    have hserves {instance' : Instance} (hown : own (request, phase) = some instance'.instanceId)
        (hknown : instance'.status = .running ∧ IsAccurate store.history instance') :
        instance'.status = .running ∧ IsAccurate next.history instance' := by
      unfold IsAccurate at *
      rwa [htouches.durations _ (hother _ hown)]
    cases phase with
    | begin => exact hfresh rfl hinformed
    | entering => exact hfresh rfl hinformed
    | choosing => exact hfresh rfl hinformed
    | registering => exact hfresh rfl hinformed
    | connecting => exact (htouches.durations _ (hother _ rfl)).trans hinformed
    | adding => exact (htouches.durations _ (hother _ rfl)).trans hinformed
    | awaitingStart => exact (htouches.durations _ (hother _ rfl)).trans hinformed
    | removing => exact (htouches.durations _ (hother _ rfl)).trans hinformed
    | claiming => exact hinformed
    | leaving => exact hserves rfl hinformed
    | serving => exact hserves rfl hinformed
    | awaitingIdle => trivial
    | refreshing => trivial
    | counting => trivial
    | returning => trivial
    | rereading => trivial
    | resetting => trivial
    | releasing => trivial
    | done => trivial

variable {state : State} {position : Nat} {request : Invocation} {phase phase' : Phase}

theorem Sound.set (hsound : Sound state) (touched : Option String)
    (hcall : state.calls[position]? = some (request, phase))
    (htouches : Touches touched state.store next)
    (hothers : ∀ (other : Nat) (call : CallState), other ≠ position →
      state.calls[other]? = some call → ∀ id ∈ touched, own call ≠ some id)
    (hown : ∀ id ∈ own (request, phase'), some id = touched ∨ own (request, phase) = some id)
    (hguarded : IsGuarded next (request, phase'))
    (hids : next.lambda.ids.Nodup)
    (haccurate : ∀ i ∈ next.lambda.instances, IsAccurate next.history i)
    (hcounted : isPending phase' = true ∨ IsCounted next.lambda ∨
      isPending phase = false ∧ (IsCounted state.store.lambda → IsCounted next.lambda)) :
    Sound { store := next, calls := state.calls.set position (request, phase') } := by
  have hlength : position < state.calls.length := (List.getElem?_eq_some_iff.mp hcall).1
  have hself : (state.calls.set position (request, phase'))[position]? = some (request, phase') :=
    List.getElem?_set_self hlength
  have hne {other : Nat} (hother : other ≠ position) :
      (state.calls.set position (request, phase'))[other]? = state.calls[other]? :=
    List.getElem?_set_ne (Ne.symm hother)
  -- No other call owns what this one owns now.
  have hapart : ∀ (other : Nat) (call : CallState), other ≠ position →
      state.calls[other]? = some call → ∀ id ∈ own (request, phase'), own call ≠ some id := by
    intro other call hother hget id hid
    rcases hown id hid with htouched | hold
    · exact hothers other call hother hget id htouched.symm
    · exact hsound.distinct position other _ call hcall hget (Ne.symm hother) id hold
  refine ⟨hids, haccurate, ?_, ?_, ?_⟩
  · intro other call hget
    change (state.calls.set position (request, phase'))[other]? = some call at hget
    by_cases hother : other = position
    · subst hother
      rw [hself] at hget
      obtain rfl := Option.some.inj hget
      exact hguarded
    · rw [hne hother] at hget
      refine (hsound.guarded other call hget).of_touches htouches fun id hid heq => ?_
      exact hothers other call hother hget id heq.symm hid
  · intro first second a b hfirst hsecond hdistinct id hid
    change (state.calls.set position (request, phase'))[first]? = some a at hfirst
    change (state.calls.set position (request, phase'))[second]? = some b at hsecond
    by_cases hfirst' : first = position
    · subst hfirst'
      rw [hself] at hfirst
      obtain rfl := Option.some.inj hfirst
      rw [hne (Ne.symm hdistinct)] at hsecond
      exact hapart second b (Ne.symm hdistinct) hsecond id hid
    · rw [hne hfirst'] at hfirst
      by_cases hsecond' : second = position
      · subst hsecond'
        rw [hself] at hsecond
        obtain rfl := Option.some.inj hsecond
        exact fun heq => hapart first a hfirst' hfirst id heq hid
      · rw [hne hsecond'] at hsecond
        exact hsound.distinct first second a b hfirst hsecond hdistinct id hid
  · rcases hcounted with hpending | hcounted | ⟨hnot, hkeeps⟩
    · exact .inr ⟨position, (request, phase'), hself, hpending⟩
    · exact .inl hcounted
    · rcases hsound.counted with hcounted | ⟨other, call, hget, hpending⟩
      · exact .inl (hkeeps hcounted)
      · refine .inr ⟨other, call, ?_, hpending⟩
        change (state.calls.set position (request, phase'))[other]? = some call
        rw [hne]
        · exact hget
        · rintro rfl
          rw [hcall] at hget
          obtain rfl := Option.some.inj hget
          rw [hnot] at hpending
          cases hpending

theorem Sound.quiet (hsound : Sound state) (hcall : state.calls[position]? = some (request, phase))
    (hlambda : next.lambda = state.store.lambda) (hhistory : next.history = state.store.history)
    (hown : ∀ id ∈ own (request, phase'), own (request, phase) = some id)
    (hinformed : IsInformed state.store (request, phase'))
    (hpending : isPending phase = true → isPending phase' = true) :
    Sound { store := next, calls := state.calls.set position (request, phase') } := by
  have hguarded := hsound.guarded position _ hcall
  obtain ⟨lambda, mutex, history⟩ := next
  subst hlambda hhistory
  refine hsound.set none hcall ⟨fun _ hi _ => hi, fun _ _ => rfl⟩
    (fun _ _ _ _ _ h => nomatch h) (fun id hid => .inr (hown id hid)) ⟨?_, hinformed⟩ hsound.ids
    hsound.accurate ?_
  · exact fun id hid => hguarded.notIdle id (hown id hid)
  · cases hphase : isPending phase with
    | true => exact .inl (hpending hphase)
    | false => exact .inr (.inr ⟨rfl, id⟩)

theorem getIdleInstance_mem {lambda : Lambda} (hidle : lambda.hasIdleInstance = true) :
    lambda.getIdleInstance ∈ lambda.instances ∧ lambda.getIdleInstance.status = .idle := by
  unfold Lambda.getIdleInstance
  cases hfind : lambda.instances.find? fun i => i.status = .idle with
  | none =>
    obtain ⟨i, hi, hstatus⟩ := List.any_eq_true.mp hidle
    exact absurd hstatus (List.find?_eq_none.mp hfind i hi)
  | some found =>
    exact ⟨List.mem_of_find?_eq_some hfind, of_decide_eq_true
      (List.find?_some (p := fun i : Instance => i.status = .idle) hfind)⟩

theorem getInstance_mem {lambda : Lambda} {instanceId : String}
    (hidle : (lambda.getInstance instanceId).status = .idle) :
    lambda.getInstance instanceId ∈ lambda.instances := by
  unfold Lambda.getInstance at *
  cases hfind : lambda.instances.find? fun i => i.instanceId = instanceId with
  | none =>
    rw [hfind] at hidle
    cases hidle
  | some found => exact List.mem_of_find?_eq_some hfind

section

variable (hsound : Sound state)
include hsound

theorem Sound.registering (hcall : state.calls[position]? = some (request, .registering)) :
    Sound
      { store := state.store.write
          (state.store.lambda.addInstance { instanceId := request.instanceId })
        calls := state.calls.set position (request, .connecting) } := by
  obtain ⟨hnew, hhistory⟩ := (hsound.guarded position _ hcall).informed
  have hmem {i : Instance} (hi : i ∈ (state.store.lambda.addInstance
      { instanceId := request.instanceId }).instances) :
      i ∈ state.store.lambda.instances ∨ i = { instanceId := request.instanceId } :=
    (List.mem_append.mp hi).imp_right List.mem_singleton.mp
  refine hsound.set (some request.instanceId) hcall ⟨fun i hi hne => ?_,
    fun _ _ => rfl⟩ ?_ (fun id hid => .inr hid) ⟨?_, hhistory⟩ ?_ ?_
    (.inr (.inr ⟨rfl, isCounted_addInstance rfl⟩))
  · rcases hmem hi with hold | rfl
    · exact hold
    · exact absurd rfl hne
  · rintro other call hother hget _ ⟨⟩
    exact hsound.distinct position other _ call hcall hget (Ne.symm hother) _ rfl
  · rintro _ ⟨⟩ i hi heq
    rcases hmem hi with hold | rfl
    · exact absurd heq (hnew i hold)
    · exact fun h => nomatch h
  · change (List.map _ (_ ++ _)).Nodup
    rw [List.map_append]
    refine List.nodup_append.mpr ⟨hsound.ids, List.nodup_singleton _, ?_⟩
    rintro id hid _ hsingle rfl
    obtain ⟨i, hi, rfl⟩ := List.mem_map.mp hid
    exact hnew i hi (List.mem_singleton.mp hsingle)
  · intro i hi
    rcases hmem hi with hold | rfl
    · exact hsound.accurate i hold
    · change 0 = ((durations state.store.history request.instanceId).length : Int) ∧
        0 = mean (durations state.store.history request.instanceId)
      rw [hhistory]
      exact ⟨rfl, by unfold mean; simp⟩

theorem Sound.removing
    (hcall : state.calls[position]? = some (request, .removing state.store.lambda)) :
    Sound
      { store := state.store.write (state.store.lambda.removeInstance request.instanceId)
        calls := state.calls.set position (request, .releasing) } := by
  have hhistory : durations state.store.history request.instanceId = [] :=
    (hsound.guarded position _ hcall).informed
  have hmem {i : Instance}
      (hi : i ∈ (state.store.lambda.removeInstance request.instanceId).instances) :
      i ∈ state.store.lambda.instances := List.mem_of_mem_filter hi
  refine hsound.set none hcall ⟨fun i hi _ => hmem hi, fun _ _ => rfl⟩
    (fun _ _ _ _ _ h => nomatch h) (fun _ h => nomatch h) ⟨fun _ h => (nomatch h), trivial⟩ ?_
    (fun i hi => hsound.accurate i (hmem hi)) (.inr (.inr ⟨rfl, isCounted_removeInstance ?_⟩))
  · exact (List.Sublist.map _ List.filter_sublist).nodup hsound.ids
  · intro i hi hid
    have haccurate := (hsound.accurate i hi).1
    rw [hid, hhistory] at haccurate
    exact haccurate

theorem touches_setStatus (instanceId : String) (status : RuntimeStatus) :
    Touches (some instanceId) state.store
      (state.store.write (state.store.lambda.setStatus instanceId status)) := by
  refine ⟨fun i hi hne => ?_, fun _ _ => rfl⟩
  rcases mem_modifyInstance hsound.ids hi with ⟨hold, -⟩ | ⟨old, -, hid, rfl⟩
  · exact hold
  · exact absurd (congrArg some hid) hne

theorem accurate_setStatus (instanceId : String) (status : RuntimeStatus) :
    ∀ i ∈ (state.store.lambda.setStatus instanceId status).instances,
      IsAccurate state.store.history i := by
  intro i hi
  rcases mem_modifyInstance hsound.ids hi with ⟨hold, -⟩ | ⟨old, hold, -, rfl⟩
  · exact hsound.accurate i hold
  · exact hsound.accurate old hold

theorem nodup_setStatus (instanceId : String) (status : RuntimeStatus) :
    (state.store.lambda.setStatus instanceId status).ids.Nodup := by
  have hids : (state.store.lambda.setStatus instanceId status).ids = state.store.lambda.ids :=
    ids_modifyInstance fun _ => rfl
  rw [hids]
  exact hsound.ids

theorem Sound.claiming {instance' : Instance}
    (hcall : state.calls[position]? = some (request, .claiming state.store.lambda instance')) :
    Sound
      { store := state.store.write
          (state.store.lambda.setStatus instance'.instanceId .running)
        calls := state.calls.set position
          (request, .leaving { instance' with status := .running }) } := by
  obtain ⟨hmem, hidle⟩ := (hsound.guarded position _ hcall).informed
  refine hsound.set (some instance'.instanceId) hcall (touches_setStatus hsound _ _) ?_
    (fun id hid => .inl hid.symm) ⟨?_, rfl, hsound.accurate instance' hmem⟩
    (nodup_setStatus hsound _ _) (accurate_setStatus hsound _ _)
    (.inr (.inr ⟨rfl, isCounted_setStatus _⟩))
  · rintro other call - hget _ ⟨⟩ hown
    exact (hsound.guarded other call hget).notIdle _ hown instance' hmem rfl hidle
  · rintro _ ⟨⟩ i hi hid
    rcases mem_modifyInstance hsound.ids hi with ⟨-, hne⟩ | ⟨old, -, -, rfl⟩
    · exact absurd hid hne
    · exact fun h => nomatch h

theorem Sound.resetting {instanceId : String}
    (hcall : state.calls[position]? = some (request, .resetting state.store.lambda instanceId)) :
    Sound
      { store := state.store.write (state.store.lambda.setStatus instanceId .idle)
        calls := state.calls.set position (request, .releasing) } := by
  refine hsound.set (some instanceId) hcall (touches_setStatus hsound _ _) ?_
    (fun _ h => nomatch h) ⟨fun _ h => (nomatch h), trivial⟩ (nodup_setStatus hsound _ _)
    (accurate_setStatus hsound _ _) (.inr (.inr ⟨rfl, isCounted_setStatus _⟩))
  rintro other call hother hget _ ⟨⟩
  exact hsound.distinct position other _ call hcall hget (Ne.symm hother) _ rfl

theorem Sound.serving {instance' : Instance}
    (hcall : state.calls[position]? = some (request, .serving instance')) :
    Sound
      { store := state.store.updateLambdaInstance (instance'.fold request.duration)
          request.duration
        calls := state.calls.set position (request,
            if instance'.instanceId ∈ state.store.lambda.ids then .refreshing instance'.instanceId
            else .returning instance'.instanceId) } := by
  obtain ⟨hrunning, haccurate⟩ := (hsound.guarded position _ hcall).informed
  have hfold := isAccurate_fold haccurate request.duration
  have hmem {i : Instance} (hi : i ∈ (state.store.updateLambdaInstance
      (instance'.fold request.duration) request.duration).lambda.instances) :
      (i ∈ state.store.lambda.instances ∧ i.instanceId ≠ instance'.instanceId) ∨
        i = instance'.fold request.duration := by
    rcases mem_modifyInstance hsound.ids hi with hold | ⟨old, -, hid, rfl⟩
    · exact .inl hold
    · refine .inr ?_
      change old.instanceId = instance'.instanceId at hid
      unfold Instance.fold
      rw [hid]
  refine hsound.set (some instance'.instanceId) hcall ⟨fun i hi hne => ?_, fun id hne =>
    durations_append_of_ne _ fun heq => hne (congrArg some heq)⟩ ?_ ?_ ⟨?_, ?_⟩ ?_ ?_ ?_
  · rcases hmem hi with hold | rfl
    · exact hold.1
    · exact absurd rfl hne
  · rintro other call hother hget _ ⟨⟩
    exact hsound.distinct position other _ call hcall hget (Ne.symm hother) _ rfl
  · intro id hid
    refine .inl ?_
    split at hid <;> exact hid.symm
  · intro id hid i hi heq
    have hid' : id = instance'.instanceId := by
      split at hid <;> exact (Option.some.inj hid).symm
    rcases hmem hi with ⟨-, hne⟩ | rfl
    · exact absurd (heq.trans hid') hne
    · change instance'.status ≠ .idle
      rw [hrunning]
      exact fun h => nomatch h
  · split <;> trivial
  · have hids : (state.store.updateLambdaInstance (instance'.fold request.duration)
        request.duration).lambda.ids = state.store.lambda.ids := ids_modifyInstance fun _ => rfl
    rw [hids]
    exact hsound.ids
  · intro i hi
    rcases hmem hi with ⟨hold, hne⟩ | rfl
    · have hkept := hsound.accurate i hold
      change _ = _ ∧ _ = _
      change _ = _ ∧ _ = _ at hkept
      rwa [show durations (state.store.updateLambdaInstance (instance'.fold request.duration)
        request.duration).history i.instanceId = durations state.store.history i.instanceId from
          durations_append_of_ne _ hne]
    · exact hfold
  · split
    next => exact .inl rfl
    next hnot =>
      refine .inr (.inr ⟨rfl, fun hcounted => ?_⟩)
      have hsame : (state.store.updateLambdaInstance (instance'.fold request.duration)
          request.duration).lambda = state.store.lambda := by
        unfold Store.updateLambdaInstance Lambda.modifyInstance
        dsimp only
        rw [rewriteFirst_of_none]
        intro i hi
        exact decide_eq_false fun heq => hnot (List.mem_map.mpr ⟨i, hi, heq⟩)
      rw [hsame]
      exact hcounted

theorem sound_step (hheeds : Heeds state position) :
    Sound (step state position) := by
  unfold step
  split
  next => exact hsound
  next request phase hcall =>
    have hphase : phase.Heeds state.store.lambda := hheeds (request, phase) hcall
    have hinformed := (hsound.guarded position _ hcall).informed
    have hquiet {phase' : Phase} {mutex : Bool}
        (hown : ∀ id ∈ own (request, phase'), own (request, phase) = some id)
        (hknown : IsInformed state.store (request, phase'))
        (hpending : isPending phase = true → isPending phase' = true) :
        Sound { store := { state.store with mutex := mutex },
                calls := state.calls.set position (request, phase') } :=
      hsound.quiet hcall rfl rfl hown hknown hpending
    cases phase with
    | begin =>
      unfold advance
      dsimp only
      split
      next => exact hquiet (fun _ h => h) hinformed fun h => nomatch h
      next => exact hquiet (fun _ h => nomatch h) trivial fun h => nomatch h
    | entering =>
      unfold advance
      dsimp only
      split <;> exact hquiet (fun _ h => h) hinformed fun h => nomatch h
    | choosing =>
      unfold advance
      dsimp only
      split
      next hidle =>
        exact hquiet (fun _ h => nomatch h) (getIdleInstance_mem hidle) fun h => nomatch h
      next =>
        split
        next => exact hquiet (fun _ h => h) hinformed fun h => nomatch h
        next => exact hquiet (fun _ h => nomatch h) trivial fun h => nomatch h
    | registering => exact hsound.registering hcall
    | connecting => exact hquiet (fun _ h => h) hinformed fun h => nomatch h
    | adding lambda =>
      obtain rfl : lambda = state.store.lambda := hphase
      exact hquiet (fun _ h => h) hinformed fun h => nomatch h
    | awaitingStart polls =>
      unfold advance
      dsimp only
      split
      next hidle =>
        exact hquiet (fun _ h => nomatch h) ⟨getInstance_mem hidle, hidle⟩ fun h => nomatch h
      next =>
        cases polls <;> exact hquiet (fun _ h => h) hinformed fun h => nomatch h
    | removing lambda =>
      obtain rfl : lambda = state.store.lambda := hphase
      exact hsound.removing hcall
    | awaitingIdle polls =>
      unfold advance
      dsimp only
      split
      next hidle =>
        exact hquiet (fun _ h => nomatch h) (getIdleInstance_mem hidle) fun h => nomatch h
      next =>
        cases polls <;> exact hquiet (fun _ h => nomatch h) trivial fun h => nomatch h
    | claiming lambda instance' =>
      obtain rfl : lambda = state.store.lambda := hphase
      exact hsound.claiming hcall
    | leaving instance' => exact hquiet (fun _ h => h) hinformed fun h => nomatch h
    | serving instance' => exact hsound.serving hcall
    | refreshing instanceId => exact hquiet (fun _ h => h) trivial fun h => h
    | counting instanceId invocations avgDuration =>
      refine hsound.set none hcall ⟨fun _ hi _ => hi, fun _ _ => rfl⟩
        (fun _ _ _ _ _ h => nomatch h) (fun _ h => .inr h)
        ⟨(hsound.guarded position _ hcall).notIdle, trivial⟩ hsound.ids hsound.accurate
        (.inr (.inl hphase))
    | returning instanceId =>
      unfold advance
      dsimp only
      split <;> exact hquiet (fun _ h => h) trivial fun h => nomatch h
    | rereading instanceId => exact hquiet (fun _ h => h) trivial fun h => nomatch h
    | resetting lambda instanceId =>
      obtain rfl : lambda = state.store.lambda := hphase
      exact hsound.resetting hcall
    | releasing => exact hquiet (fun _ h => nomatch h) trivial fun h => nomatch h
    | done => exact hquiet (fun _ h => nomatch h) trivial fun h => nomatch h

end

theorem IsStart.sound (hstart : IsStart state) : Sound state := by
  have hown (position : Nat) (call : CallState) (hget : state.calls[position]? = some call) :
      call ∈ state.calls ∧ own call = some call.1.instanceId := by
    have hmem := List.mem_of_getElem? hget
    refine ⟨hmem, ?_⟩
    obtain ⟨request, phase⟩ := call
    obtain rfl : phase = .begin := hstart.begin _ hmem
    rfl
  refine ⟨hstart.ids, hstart.accurate, ?_, ?_, .inl hstart.counted⟩
  · intro position call hget
    obtain ⟨hmem, hcall⟩ := hown position call hget
    obtain ⟨hnew, hhistory⟩ := hstart.unknown call hmem
    have hfresh : ∀ i ∈ state.store.lambda.instances, i.instanceId ≠ call.1.instanceId :=
      fun i hi heq => hnew (List.mem_map.mpr ⟨i, hi, heq⟩)
    refine ⟨fun id hid i hi heq => ?_, ?_⟩
    · rw [hcall] at hid
      obtain rfl := Option.some.inj hid
      exact absurd heq (hfresh i hi)
    · obtain ⟨request, phase⟩ := call
      obtain rfl : phase = .begin := hstart.begin _ hmem
      exact ⟨hfresh, hhistory⟩
  · intro first second a b hfirst hsecond hne id hid heq
    rw [(hown first a hfirst).2] at hid
    rw [(hown second b hsecond).2] at heq
    obtain rfl := Option.some.inj hid
    refine hne ((List.getElem?_inj ?_ hstart.distinct).mp ?_)
    · rw [List.length_map]
      exact (List.getElem?_eq_some_iff.mp hfirst).1
    · rw [List.getElem?_map, List.getElem?_map, hfirst, hsecond, Option.map_some, Option.map_some]
      exact heq.symm

theorem Sound.hasStatistics (hsound : Sound state) : HasStatistics state := by
  intro hdone
  refine ⟨hsound.accurate, ?_⟩
  rcases hsound.counted with hcounted | ⟨position, call, hget, hpending⟩
  · exact hcounted
  · rw [hdone call (List.mem_of_getElem? hget)] at hpending
    cases hpending

end Ownership

/-- In every run whose steps meet the condition, the statistics are right whenever all calls
have returned. -/
theorem hasStatistics_of_heeded {state : State} (hstart : IsStart state) (positions : List Nat)
    (hheeded : Runs.Heeded step Heeds positions state) :
    Runs.Always step HasStatistics positions state := by
  have hstep (state : State) (position : Nat) (hsound : Sound state)
      (hheeds : Heeds state position) : Sound (step state position) := sound_step hsound hheeds
  have halways := Runs.always_of_heeded hstep positions hstart.sound hheeded
  exact halways.imp fun _ hsound => hsound.hasStatistics

def orders : State where
  store := { lambda := { instances :=
    [{ instanceId := "a", status := .idle }, { instanceId := "b", status := .idle }] } }
  calls := [({ instanceId := "c", duration := 3 }, .begin),
    ({ instanceId := "d", duration := 5 }, .begin)]

theorem isStart_orders : IsStart orders :=
  ⟨by decide +kernel, by decide +kernel, by decide +kernel, by decide +kernel, by decide +kernel,
    ⟨by decide +kernel, by decide +kernel⟩⟩

/-- One call after the other. -/
theorem hasStatistics_of_heeded_orders :
    Runs.Always step HasStatistics (List.replicate 12 0 ++ List.replicate 12 1) orders :=
  hasStatistics_of_heeded isStart_orders _ (by decide +kernel)

/-- The first call writes back a copy without the invocation that the second one has counted
meanwhile. -/
theorem not_hasStatistics_lostInvocation :
    ¬ ∀ (state : State) (positions : List Nat), IsStart state →
      Runs.Always step HasStatistics positions state := by
  intro hall
  have hlast := (hall orders [0, 0, 0, 0, 0, 1, 1, 1, 1, 1, 0, 0, 0, 0, 0, 1, 0, 0, 1, 1, 1, 1, 1, 1]
    isStart_orders).last
  exact absurd (hlast (by decide +kernel)).1 (by decide +kernel)

end AwsMock.Lambdas.Statistics
