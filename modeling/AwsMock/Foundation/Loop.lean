import Mathlib.Logic.Basic

/-! # Loops

One round of a loop goes on with a state or leaves it with a result. A loop ends when some number
of rounds is enough.
-/

namespace Foundation.Loop

variable {State Result : Type}

def rounds (step : State → State ⊕ Result) : Nat → State → Option Result
  | 0, _ => none
  | fuel + 1, state =>
    match step state with
    | .inl next => rounds step fuel next
    | .inr result => some result

def EndsWith (step : State → State ⊕ Result) (state : State) (result : Result) : Prop :=
  ∃ fuel, rounds step fuel state = some result

def Ends (step : State → State ⊕ Result) (state : State) : Prop :=
  ∃ result, EndsWith step state result

variable {step : State → State ⊕ Result} {state next : State} {result other : Result}

theorem rounds_of_go (hgo : step state = .inl next) (fuel : Nat) :
    rounds step (fuel + 1) state = rounds step fuel next := by
  rw [rounds, hgo]

theorem rounds_of_leave (hleave : step state = .inr result) (fuel : Nat) :
    rounds step (fuel + 1) state = some result := by
  rw [rounds, hleave]

theorem rounds_of_le {fuel more : Nat} (hle : fuel ≤ more)
    (hend : rounds step fuel state = some result) : rounds step more state = some result := by
  induction fuel generalizing state more with
  | zero => cases hend
  | succ fuel ih =>
    obtain ⟨more, rfl⟩ := Nat.exists_eq_add_of_lt (Nat.lt_of_succ_le hle)
    cases hstep : step state with
    | inl next =>
      rw [rounds_of_go hstep] at hend ⊢
      exact ih (Nat.le_add_right _ _) hend
    | inr leave =>
      rw [rounds_of_leave hstep] at hend ⊢
      exact hend

theorem EndsWith.unique (hfirst : EndsWith step state result)
    (hsecond : EndsWith step state other) : result = other := by
  obtain ⟨fuel, hfirst⟩ := hfirst
  obtain ⟨more, hsecond⟩ := hsecond
  have hleft := rounds_of_le (Nat.le_max_left fuel more) hfirst
  have hright := rounds_of_le (Nat.le_max_right fuel more) hsecond
  exact Option.some.inj (hleft.symm.trans hright)

theorem endsWith_of_leave (hleave : step state = .inr result) : EndsWith step state result :=
  ⟨1, rounds_of_leave hleave 0⟩

theorem endsWith_iff_of_go (hgo : step state = .inl next) :
    EndsWith step state result ↔ EndsWith step next result := by
  constructor
  · rintro ⟨fuel, hend⟩
    cases fuel with
    | zero => cases hend
    | succ fuel => exact ⟨fuel, (rounds_of_go hgo fuel).symm.trans hend⟩
  · rintro ⟨fuel, hend⟩
    exact ⟨fuel + 1, (rounds_of_go hgo fuel).trans hend⟩

theorem ends_of_leave (hleave : step state = .inr result) : Ends step state :=
  ⟨result, endsWith_of_leave hleave⟩

theorem ends_iff_of_go (hgo : step state = .inl next) : Ends step state ↔ Ends step next :=
  exists_congr fun _ => endsWith_iff_of_go hgo

theorem not_ends_of_invariant {P : State → Prop}
    (hgo : ∀ state, P state → ∃ next, step state = .inl next ∧ P next) (hstate : P state) :
    ¬Ends step state := by
  rintro ⟨result, fuel, hend⟩
  induction fuel generalizing state with
  | zero => cases hend
  | succ fuel ih =>
    obtain ⟨next, hstep, hnext⟩ := hgo state hstate
    rw [rounds_of_go hstep] at hend
    exact ih hnext hend

end Foundation.Loop
