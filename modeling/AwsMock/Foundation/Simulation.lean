import AwsMock.Foundation.Action

/-! # Calls that agree

Two calls run on two states that are related. Both return, in states and with values that
are related again, or both halt for one reason. The rules follow the constructors of calls.
-/

namespace Foundation

variable {Lock Exn State Other α β γ δ : Type}

def Outcome.Agrees (post : α → β → State → Other → Prop) (halted : State → Other → Prop) :
    Outcome Exn State α → Outcome Exn Other β → Prop
  | .returns value after, .returns value' after' => post value value' after after'
  | .halts halt after, .halts halt' after' => halt = halt' ∧ halted after after'
  | _, _ => False

namespace Action

/-- From states that meet `pre`, both calls return with `post` or halt alike with
`halted`, whatever locks are held. -/
def Agrees (pre : State → Other → Prop) (call : Action Lock Exn State α)
    (call' : Action Lock Exn Other β) (post : α → β → State → Other → Prop)
    (halted : State → Other → Prop) : Prop :=
  ∀ held first second, pre first second →
    (call.run held first).Agrees post halted (call'.run held second)

variable {pre middle : State → Other → Prop} {post : α → β → State → Other → Prop}
variable {halted : State → Other → Prop}
variable {call : Action Lock Exn State α} {call' : Action Lock Exn Other β}

variable {next' : β → Action Lock Exn Other δ} {next : α → Action Lock Exn State γ}

theorem Agrees.bind {post : γ → δ → State → Other → Prop}
    {between : α → β → State → Other → Prop}
    (hcall : Agrees pre call call' between halted)
    (hnext : ∀ value value', Agrees (between value value') (next value) (next' value') post
      halted) :
    Agrees pre (call >>= next) (call' >>= next') post halted := by
  intro held first second hpre
  have hends := hcall held first second hpre
  rw [run_bind, run_bind]
  revert hends
  cases call.run held first with
  | returns value after =>
    cases call'.run held second with
    | returns value' after' => exact hnext value value' held after after'
    | halts halt' after' => exact False.elim
  | halts halt after =>
    cases call'.run held second with
    | returns value' after' => exact False.elim
    | halts halt' after' => exact id

def Yields (pre : State → Other → Prop) (call : Action Lock Exn State α)
    (call' : Action Lock Exn Other β) (value : α) (value' : β) (after : State → Other → Prop) :
    Prop :=
  ∀ halted, Agrees pre call call'
    (fun result result' first second => (result = value ∧ result' = value') ∧ after first second)
    halted

theorem Yields.bind {post : γ → δ → State → Other → Prop} {value : α} {value' : β}
    (hcall : Yields pre call call' value value' middle)
    (hnext : Agrees middle (next value) (next' value') post halted) :
    Agrees pre (call >>= next) (call' >>= next') post halted := by
  apply Agrees.bind (hcall halted)
  rintro result result' held first second ⟨⟨rfl, rfl⟩, hmiddle⟩
  exact hnext held first second hmiddle

theorem Yields.agrees {value : α} {value' : β} (hcall : Yields pre call call' value value' middle)
    (hpost : ∀ first second, middle first second → post value value' first second) :
    Agrees pre call call' post halted := by
  intro held first second hpre
  have hends := hcall halted held first second hpre
  revert hends
  cases call.run held first with
  | returns result after =>
    cases call'.run held second with
    | returns result' after' =>
      rintro ⟨⟨rfl, rfl⟩, hmiddle⟩
      exact hpost after after' hmiddle
    | halts halt' after' => exact False.elim
  | halts halt after =>
    cases call'.run held second with
    | returns result' after' => exact False.elim
    | halts halt' after' => exact id

theorem agrees_pure {value : α} {value' : β}
    (hpost : ∀ first second, pre first second → post value value' first second) :
    Agrees pre (pure value : Action Lock Exn State α) (pure value') post halted :=
  fun _ first second hpre => hpost first second hpre

section

variable (hhalted : ∀ first second, pre first second → halted first second)
include hhalted

theorem agrees_raise {exn : Exn} :
    Agrees pre (raise exn : Action Lock Exn State α) (raise exn : Action Lock Exn Other β) post
      halted :=
  fun _ first second hpre => ⟨rfl, hhalted first second hpre⟩

theorem agrees_undefinedBehaviour :
    Agrees pre (undefinedBehaviour : Action Lock Exn State α)
      (undefinedBehaviour : Action Lock Exn Other β) post halted :=
  fun _ first second hpre => ⟨rfl, hhalted first second hpre⟩

end

theorem Agrees.rethrow {translate : Exn → Exn} (hcall : Agrees pre call call' post halted) :
    Agrees pre (rethrow translate call) (rethrow translate call') post halted := by
  intro held first second hpre
  have hends := hcall held first second hpre
  rw [run_rethrow, run_rethrow]
  revert hends
  cases call.run held first with
  | returns value after =>
    cases call'.run held second with
    | returns value' after' => exact id
    | halts halt' after' => exact False.elim
  | halts halt after =>
    cases call'.run held second with
    | returns value' after' => exact False.elim
    | halts halt' after' =>
      rintro ⟨rfl, hhalted⟩
      cases halt <;> exact ⟨rfl, hhalted⟩

theorem Agrees.ite {condition : Prop} [Decidable condition] {other : Action Lock Exn State α}
    {other' : Action Lock Exn Other β} (hthen : condition → Agrees pre call call' post halted)
    (helse : ¬condition → Agrees pre other other' post halted) :
    Agrees pre (if condition then call else other) (if condition then call' else other') post
      halted := by
  split
  next hcondition => exact hthen hcondition
  next hcondition => exact helse hcondition

theorem agrees_forM {body : γ → Action Lock Exn State PUnit}
    {body' : γ → Action Lock Exn Other PUnit} (xs : List γ)
    (hbody : ∀ x ∈ xs, Agrees pre (body x) (body' x) (fun _ _ => pre) halted) :
    Agrees pre (xs.forM body) (xs.forM body') (fun _ _ => pre) halted := by
  induction xs with
  | nil => exact agrees_pure fun _ _ => id
  | cons x xs ih =>
    change Agrees pre (body x >>= fun _ => xs.forM body) (body' x >>= fun _ => xs.forM body') _
      halted
    apply Agrees.bind (hbody x List.mem_cons_self)
    intro _ _
    exact ih fun other hother => hbody other (List.mem_cons_of_mem _ hother)

theorem Agrees.imp {post' : α → β → State → Other → Prop} {halted' : State → Other → Prop}
    (hcall : Agrees pre call call' post halted)
    (hpost : ∀ value value' first second, post value value' first second →
      post' value value' first second)
    (hhalted : ∀ first second, halted first second → halted' first second) :
    Agrees pre call call' post' halted' := by
  intro held first second hpre
  have hends := hcall held first second hpre
  revert hends
  cases call.run held first with
  | returns value after =>
    cases call'.run held second with
    | returns value' after' => exact hpost value value' after after'
    | halts halt' after' => exact False.elim
  | halts halt after =>
    cases call'.run held second with
    | returns value' after' => exact False.elim
    | halts halt' after' => exact fun hends => ⟨hends.1, hhalted after after' hends.2⟩

end Action

end Foundation
