import Mathlib.Logic.Relation
import AwsMock.Foundation.Action

/-! # Contracts of calls

What holds of the state a call leaves, and of the value it returns, when the
state it starts from meets a condition. A call may halt, and then leaves a
state with a condition of its own. The rules follow the constructors of calls.
-/

namespace Foundation

variable {Lock Exn State α β : Type}

def Outcome.Ends (post : α → State → Prop) (halted : State → Prop) :
    Outcome Exn State α → Prop
  | .returns value after => post value after
  | .halts _ after => halted after

namespace Action

/-- From a state that meets `pre`, the call ends with `post` or halts with
`halted`, whatever locks are held. -/
def Satisfies (pre : State → Prop) (call : Action Lock Exn State α)
    (post : α → State → Prop) (halted : State → Prop) : Prop :=
  ∀ held state, pre state → (call.run held state).Ends post halted

/-- A call after which a condition holds that held before it. -/
def Keeps (holds : State → Prop) (call : Action Lock Exn State α) : Prop :=
  call.Satisfies holds (fun _ => holds) holds

variable {pre : State → Prop} {post : α → State → Prop} {halted holds : State → Prop}
variable {call : Action Lock Exn State α}

theorem Satisfies.weaken {post' : α → State → Prop} (hcall : call.Satisfies pre post halted)
    (himp : ∀ value state, post value state → post' value state) :
    call.Satisfies pre post' halted := by
  intro held state hpre
  have hends := hcall held state hpre
  revert hends
  cases call.run held state with
  | returns value after => exact himp value after
  | halts halt after => exact id

theorem Satisfies.imp {post' : α → State → Prop} {halted' : State → Prop}
    (hcall : call.Satisfies pre post halted)
    (hpost : ∀ value state, post value state → post' value state)
    (hhalted : ∀ state, halted state → halted' state) :
    call.Satisfies pre post' halted' := by
  intro held state hpre
  have hends := hcall held state hpre
  revert hends
  cases call.run held state with
  | returns value after => exact hpost value after
  | halts halt after => exact hhalted after

theorem Satisfies.assuming {fact : Prop} (hcall : fact → call.Satisfies pre post halted) :
    call.Satisfies (fun state => pre state ∧ fact) post halted :=
  fun held state hpre => hcall hpre.2 held state hpre.1

theorem satisfies_pure {value : α} (hpost : ∀ state, pre state → post value state) :
    (pure value : Action Lock Exn State α).Satisfies pre post halted :=
  fun _ state hpre => hpost state hpre

variable {next : α → Action Lock Exn State β} {body : β → Action Lock Exn State PUnit}
variable {held : List Lock}

theorem Satisfies.bind {middle : α → State → Prop} {post : β → State → Prop}
    (hcall : call.Satisfies pre middle halted)
    (hnext : ∀ value, (next value).Satisfies (middle value) post halted) :
    (call >>= next).Satisfies pre post halted := by
  intro held state hpre
  have hends := hcall held state hpre
  rw [run_bind]
  revert hends
  cases call.run held state with
  | returns value after => exact hnext value held after
  | halts halt after => exact id

theorem satisfies_gets {read : State → α} (hpost : ∀ state, pre state → post (read state) state) :
    (gets read : Action Lock Exn State α).Satisfies pre post halted :=
  fun _ state hpre => hpost state hpre

theorem satisfies_raise {exn : Exn} (hhalted : ∀ state, pre state → halted state) :
    (raise exn : Action Lock Exn State α).Satisfies pre post halted :=
  fun _ state hpre => hhalted state hpre

theorem satisfies_outOfFuel (hhalted : ∀ state, pre state → halted state) :
    (outOfFuel : Action Lock Exn State α).Satisfies pre post halted :=
  fun _ state hpre => hhalted state hpre

theorem Satisfies.scopedLock [DecidableEq Lock] {lock : Lock}
    (hcall : call.Satisfies pre post halted) (hhalted : ∀ state, pre state → halted state) :
    (scopedLock lock call).Satisfies pre post halted := by
  intro held state hpre
  rw [run_scopedLock]
  split
  · exact hhalted state hpre
  · exact hcall (lock :: held) state hpre

theorem Satisfies.rethrow {translate : Exn → Exn} (hcall : call.Satisfies pre post halted) :
    (rethrow translate call).Satisfies pre post halted := by
  intro held state hpre
  have hends := hcall held state hpre
  rw [run_rethrow]
  revert hends
  cases call.run held state with
  | returns value after => exact id
  | halts halt after => cases halt <;> exact id

theorem Satisfies.ite {condition : Prop} [Decidable condition]
    {other : Action Lock Exn State α}
    (hthen : condition → call.Satisfies pre post halted)
    (helse : ¬condition → other.Satisfies pre post halted) :
    (if condition then call else other).Satisfies pre post halted := by
  split
  next hcondition => exact hthen hcondition
  next hcondition => exact helse hcondition

theorem keeps_pure (value : α) : (pure value : Action Lock Exn State α).Keeps holds :=
  satisfies_pure fun _ => id

theorem Keeps.bind (hcall : call.Keeps holds)
    (hnext : ∀ value, (next value).Keeps holds) : (call >>= next).Keeps holds :=
  Satisfies.bind hcall hnext

theorem Keeps.bind_of {middle : α → Prop}
    (hcall : call.Satisfies holds (fun value state => holds state ∧ middle value) holds)
    (hnext : ∀ value, middle value → (next value).Keeps holds) : (call >>= next).Keeps holds :=
  Satisfies.bind hcall fun value held state hstate => hnext value hstate.2 held state hstate.1

theorem keeps_gets (read : State → α) : (gets read : Action Lock Exn State α).Keeps holds :=
  satisfies_gets fun _ => id

theorem keeps_raise (exn : Exn) : (raise exn : Action Lock Exn State α).Keeps holds :=
  satisfies_raise fun _ => id

theorem Keeps.scopedLock [DecidableEq Lock] {lock : Lock} (hcall : call.Keeps holds) :
    (scopedLock lock call).Keeps holds :=
  Satisfies.scopedLock hcall fun _ => id

theorem Keeps.rethrow {translate : Exn → Exn} (hcall : call.Keeps holds) :
    (rethrow translate call).Keeps holds :=
  Satisfies.rethrow hcall

variable (xs : List β)

theorem keeps_foldlM {σ : Type} {body : σ → β → Action Lock Exn State σ}
    (hbody : ∀ acc x, x ∈ xs → (body acc x).Keeps holds) (acc : σ) :
    (xs.foldlM body acc).Keeps holds := by
  induction xs generalizing acc with
  | nil => exact keeps_pure acc
  | cons x xs ih =>
    rw [List.foldlM_cons]
    apply Keeps.bind (hbody acc x List.mem_cons_self)
    intro acc'
    exact ih (fun acc other hother => hbody acc other (List.mem_cons_of_mem _ hother)) acc'

theorem satisfies_forM
    (hbody : ∀ x ∈ xs, (body x).Satisfies holds (fun _ => holds) halted) :
    (xs.forM body).Satisfies holds (fun _ => holds) halted := by
  induction xs with
  | nil => exact satisfies_pure fun _ => id
  | cons x xs ih =>
    change (body x >>= fun _ => xs.forM body).Satisfies holds _ halted
    apply Satisfies.bind (hbody x List.mem_cons_self)
    intro _
    exact ih fun other hother => hbody other (List.mem_cons_of_mem _ hother)

theorem keeps_forM
    (hbody : ∀ x ∈ xs, (body x).Keeps holds) : (xs.forM body).Keeps holds :=
  satisfies_forM xs hbody

theorem Satisfies.of_returns (hcall : call.Satisfies pre post halted)
    {state after : State} {value : α} (hpre : pre state)
    (hrun : call.run held state = .returns value after) : post value after := by
  have hends := hcall held state hpre
  rw [hrun] at hends
  exact hends

theorem Keeps.eq_of_returns {σ : Type} (read : State → σ)
    (hcall : ∀ kept, call.Keeps fun state => read state = kept)
    {state after : State} {value : α} (hrun : call.run held state = .returns value after) :
    read after = read state :=
  Satisfies.of_returns (hcall (read state)) rfl hrun

theorem Satisfies.after (hcall : call.Satisfies pre (fun _ => holds) holds)
    {state : State} (hstate : pre state) : holds (call.run held state).after := by
  have hends := hcall held state hstate
  revert hends
  cases call.run held state with
  | returns value after => exact id
  | halts halt after => exact id

theorem Keeps.after (hcall : call.Keeps holds) {state : State}
    (hstate : holds state) : holds (call.run held state).after :=
  Satisfies.after hcall hstate

end Action

theorem of_reflTransGen {σ : Type} {step : σ → σ → Prop} {holds : σ → Prop}
    (hstep : ∀ before after, step before after → holds before → holds after)
    {first last : σ} (hrun : Relation.ReflTransGen step first last) (hfirst : holds first) :
    holds last := by
  induction hrun with
  | refl => exact hfirst
  | tail _ hlast ih => exact hstep _ _ hlast ih

end Foundation
