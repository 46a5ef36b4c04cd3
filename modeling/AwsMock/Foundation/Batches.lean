import AwsMock.Foundation.Action

/-! # Batches of calls

A call is made for every entry of a list, one after the other. A batch that stops at the first
exception returns exactly when every call does; a batch of attempts goes on after an exception,
from the state the exception leaves.
-/

namespace Foundation

namespace Action

variable {Lock Exn State α β γ : Type}

/-- Make a call for every entry, and collect what the calls return. -/
def each (call : α → Action Lock Exn State β) : List α → Action Lock Exn State (List β)
  | [] => pure []
  | a :: rest => do
      let b ← call a
      let later ← each call rest
      return b :: later

def attempt (call : Action Lock Exn State β) : Action Lock Exn State (Option β) :=
  tryCatch (do return some (← call)) fun _ => pure none

section Rules

variable {call : α → Action Lock Exn State β} {held : List Lock} {state after : State}

variable {results : List β} {entries : List α}

theorem run_each_nil_eq_returns :
    (each call []).run held state = .returns results after ↔ results = [] ∧ state = after := by
  rw [each, run_pure, Outcome.returns.injEq, eq_comm]

theorem run_each_cons_eq_returns {a : α} {rest : List α} :
    (each call (a :: rest)).run held state = .returns results after ↔
      ∃ b middle later, (call a).run held state = .returns b middle ∧
        (each call rest).run held middle = .returns later after ∧ results = b :: later := by
  rw [each, run_bind_eq_returns]
  constructor
  · rintro ⟨b, middle, hcall, hrest⟩
    obtain ⟨later, last, hlater, hresults⟩ := run_bind_eq_returns.mp hrest
    obtain ⟨rfl, rfl⟩ := Outcome.returns.inj hresults
    exact ⟨b, middle, later, hcall, hlater, rfl⟩
  · rintro ⟨b, middle, later, hcall, hlater, rfl⟩
    exact ⟨b, middle, hcall, run_bind_eq_returns.mpr ⟨later, after, hlater, rfl⟩⟩

theorem length_of_run_each (hrun : (each call entries).run held state = .returns results after) :
    results.length = entries.length := by
  induction entries generalizing results state with
  | nil =>
    obtain ⟨rfl, -⟩ := run_each_nil_eq_returns.mp hrun
    rfl
  | cons a rest ih =>
    obtain ⟨b, middle, later, -, hlater, rfl⟩ := run_each_cons_eq_returns.mp hrun
    rw [List.length_cons, List.length_cons, ih hlater]

theorem run_foldlM_eq_returns {combine : γ → α → β → γ} {start result : γ} :
    (entries.foldlM (fun acc a => do return combine acc a (← call a)) start).run held state =
        .returns result after ↔
      ∃ results, (each call entries).run held state = .returns results after ∧
        result = (entries.zip results).foldl (fun acc entry => combine acc entry.1 entry.2)
          start := by
  induction entries generalizing start state with
  | nil =>
    rw [List.foldlM_nil, run_pure]
    constructor
    · intro hrun
      obtain ⟨rfl, rfl⟩ := Outcome.returns.inj hrun
      exact ⟨[], rfl, rfl⟩
    · rintro ⟨results, hrun, rfl⟩
      obtain ⟨rfl, rfl⟩ := run_each_nil_eq_returns.mp hrun
      rfl
  | cons a rest ih =>
    rw [List.foldlM_cons, run_bind_eq_returns]
    constructor
    · rintro ⟨combined, middle, hfirst, hrest⟩
      obtain ⟨b, last, hcall, hcombined⟩ := run_bind_eq_returns.mp hfirst
      obtain ⟨rfl, rfl⟩ := Outcome.returns.inj hcombined
      obtain ⟨later, hlater, rfl⟩ := ih.mp hrest
      exact ⟨b :: later, run_each_cons_eq_returns.mpr ⟨b, last, later, hcall, hlater, rfl⟩, rfl⟩
    · rintro ⟨results, hrun, rfl⟩
      obtain ⟨b, middle, later, hcall, hlater, rfl⟩ := run_each_cons_eq_returns.mp hrun
      exact ⟨combine start a b, middle, run_bind_eq_returns.mpr ⟨b, middle, hcall, rfl⟩,
        ih.mpr ⟨later, hlater, rfl⟩⟩

theorem run_attempt_eq_returns_some {single : Action Lock Exn State β} {b : β} :
    (attempt single).run held state = .returns (some b) after ↔
      single.run held state = .returns b after := by
  rw [attempt, run_tryCatch, run_bind]
  cases single.run held state with
  | returns value last => simp
  | halts halt last => cases halt <;> simp

theorem run_each_attempt_map_some :
    (each (fun a => attempt (call a)) entries).run held state = .returns (results.map some) after ↔
      (each call entries).run held state = .returns results after := by
  induction entries generalizing results state with
  | nil =>
    rw [run_each_nil_eq_returns, run_each_nil_eq_returns, List.map_eq_nil_iff]
  | cons a rest ih =>
    rw [run_each_cons_eq_returns, run_each_cons_eq_returns]
    constructor
    · rintro ⟨tried, middle, later, hcall, hlater, hresults⟩
      cases results with
      | nil => cases hresults
      | cons b results =>
        obtain ⟨rfl, rfl⟩ := List.cons.inj hresults
        exact ⟨b, middle, results, run_attempt_eq_returns_some.mp hcall, ih.mp hlater, rfl⟩
    · rintro ⟨b, middle, later, hcall, hlater, rfl⟩
      exact ⟨some b, middle, later.map some, run_attempt_eq_returns_some.mpr hcall,
        ih.mpr hlater, rfl⟩

theorem exists_run_each_of_run_each {other : α → Action Lock Exn State γ}
    (hother : ∀ a state b next, (call a).run held state = .returns b next →
      ∃ c, (other a).run held state = .returns c next)
    (hrun : (each call entries).run held state = .returns results after) :
    ∃ others, (each other entries).run held state = .returns others after := by
  induction entries generalizing results state with
  | nil =>
    obtain ⟨-, rfl⟩ := run_each_nil_eq_returns.mp hrun
    exact ⟨[], rfl⟩
  | cons a rest ih =>
    obtain ⟨b, middle, later, hcall, hlater, -⟩ := run_each_cons_eq_returns.mp hrun
    obtain ⟨c, hfirst⟩ := hother a state b middle hcall
    obtain ⟨others, hothers⟩ := ih hlater
    exact ⟨c :: others, run_each_cons_eq_returns.mpr ⟨c, middle, others, hfirst, hothers, rfl⟩⟩

theorem exists_run_each (hcall : ∀ a state, ∃ b next, (call a).run held state = .returns b next)
    (entries : List α) (state : State) :
    ∃ results after, (each call entries).run held state = .returns results after := by
  induction entries generalizing state with
  | nil => exact ⟨[], state, rfl⟩
  | cons a rest ih =>
    obtain ⟨b, middle, hfirst⟩ := hcall a state
    obtain ⟨later, after, hlater⟩ := ih middle
    exact ⟨b :: later, after, run_each_cons_eq_returns.mpr ⟨b, middle, later, hfirst, hlater, rfl⟩⟩

end Rules

end Action

end Foundation
