import Mathlib.Data.List.Basic

/-! # Properties along a run

A machine takes the events of a run one after the other. A property may hold in every state
of the run, and a condition may be met by every step. Where one step keeps the property just
when it meets the condition, so does the run.
-/

namespace Foundation.Runs

variable {State Event : Type*} (step : State → Event → State)

/-- The property holds before the first event and after every event. -/
def Always (P : State → Prop) : List Event → State → Prop
  | [], state => P state
  | event :: events, state => P state ∧ Always P events (step state event)

def Heeded (H : State → Event → Prop) : List Event → State → Prop
  | [], _ => True
  | event :: events, state => H state event ∧ Heeded H events (step state event)

variable {step} {P I : State → Prop} {H : State → Event → Prop}

instance decidableHeeded [∀ state event, Decidable (H state event)] :
    ∀ events state, Decidable (Heeded step H events state)
  | [], _ => isTrue trivial
  | event :: events, state =>
    have := decidableHeeded events (step state event)
    inferInstanceAs (Decidable (_ ∧ _))

variable {state : State} {events : List Event} {D : State → Event → Prop}

theorem always_of_step (hstep : ∀ state event, I state → I (step state event))
    (events : List Event) (hstate : I state) : Always step I events state := by
  induction events generalizing state with
  | nil => exact hstate
  | cons event events ih => exact ⟨hstate, ih (hstep state event hstate)⟩

theorem always_of_heeded (hstep : ∀ state event, I state → H state event → I (step state event))
    (events : List Event) (hstate : I state)
    (hheeded : Heeded step H events state) : Always step I events state := by
  induction events generalizing state with
  | nil => exact hstate
  | cons event events ih => exact ⟨hstate, ih (hstep state event hstate hheeded.1) hheeded.2⟩

theorem Always.imp (himp : ∀ state, I state → P state)
    (halways : Always step I events state) : Always step P events state := by
  induction events generalizing state with
  | nil => exact himp state halways
  | cons event events ih => exact ⟨himp state halways.1, ih halways.2⟩

theorem Always.last (halways : Always step P events state) :
    P (events.foldl step state) := by
  induction events generalizing state with
  | nil => exact halways
  | cons event events ih => exact ih halways.2

theorem Always.first (halways : Always step P events state) :
    P state := by
  cases events with
  | nil => exact halways
  | cons event events => exact halways.1

theorem always_iff_heeded_of_promised (hstep : ∀ state event, I state → P state → D state event →
      I (step state event) ∧ (P (step state event) ↔ H state event))
    (events : List Event) (hI : I state) (hP : P state)
    (hD : Heeded step D events state) :
    Always step P events state ↔ Heeded step H events state := by
  induction events generalizing state with
  | nil => exact ⟨fun _ => trivial, fun _ => hP⟩
  | cons event events ih =>
    obtain ⟨hnext, hiff⟩ := hstep state event hI hP hD.1
    constructor
    · intro halways
      have hkept := halways.2.first
      exact ⟨hiff.mp hkept, (ih hnext hkept hD.2).mp halways.2⟩
    · intro hheeded
      have hkept := hiff.mpr hheeded.1
      exact ⟨hP, (ih hnext hkept hD.2).mpr hheeded.2⟩

theorem Heeded.and (hheeded : Heeded step H events state) (hother : Heeded step D events state) :
    Heeded step (fun state event => H state event ∧ D state event) events state := by
  induction events generalizing state with
  | nil => trivial
  | cons event events ih => exact ⟨⟨hheeded.1, hother.1⟩, ih hheeded.2 hother.2⟩

theorem Heeded.imp_of_step
    (hstep : ∀ state event, I state → H state event → I (step state event) ∧ D state event)
    (hheeded : Heeded step H events state)
    (hstate : I state) : Heeded step D events state := by
  induction events generalizing state with
  | nil => trivial
  | cons event events ih =>
    obtain ⟨hnext, hmeets⟩ := hstep state event hstate hheeded.1
    exact ⟨hmeets, ih hheeded.2 hnext⟩

theorem heeded_of_forall (hall : ∀ event ∈ events, ∀ state, H state event)
    (state : State) : Heeded step H events state := by
  induction events generalizing state with
  | nil => trivial
  | cons event events ih =>
    exact ⟨hall event List.mem_cons_self state,
      ih (fun other hother => hall other (List.mem_cons_of_mem _ hother)) (step state event)⟩

theorem heeded_true (events : List Event) (state : State) :
    Heeded step (fun _ _ => True) events state :=
  heeded_of_forall (fun _ _ _ => trivial) state

theorem always_iff_heeded_of_step (hstep : ∀ state event, I state → P state →
      I (step state event) ∧ (P (step state event) ↔ H state event))
    (events : List Event) (hI : I state) (hP : P state) :
    Always step P events state ↔ Heeded step H events state :=
  always_iff_heeded_of_promised (fun state event hI hP _ => hstep state event hI hP) events hI hP
    (heeded_true events state)

theorem always_iff_heeded (hinvariant : ∀ state event, I state → I (step state event))
    (hstep : ∀ state event, I state → P state → (P (step state event) ↔ H state event))
    (events : List Event) (hI : I state) (hP : P state) :
    Always step P events state ↔ Heeded step H events state :=
  always_iff_heeded_of_step
    (fun state event hI hP => ⟨hinvariant state event hI, hstep state event hI hP⟩) events hI hP

end Foundation.Runs
