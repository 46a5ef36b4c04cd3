import Mathlib.Data.List.Forall2

/-! # Fallible maps over lists

A function that may fail is applied to every element of a list; the first
failure fails the whole. A run that succeeds relates every element to its
result, and two runs one after the other are one run.
-/

namespace Foundation

variable {ε α β γ : Type}

theorem ok_bind (a : α) (next : α → Except ε β) : ((.ok a : Except ε α) >>= next) = next a := rfl

theorem map_eq_ok {f : α → β} {first : Except ε α} {result : β} :
    first.map f = .ok result ↔ ∃ a, first = .ok a ∧ f a = result := by
  cases first with
  | error failure => exact iff_of_false nofun fun ⟨_, hfirst, _⟩ => nomatch hfirst
  | ok a => exact ⟨fun heq => ⟨a, rfl, Except.ok.inj heq⟩, fun ⟨_, rfl, heq⟩ => congrArg _ heq⟩

theorem bind_eq_ok {first : Except ε α} {next : α → Except ε β} {result : β} :
    (first >>= next) = .ok result ↔ ∃ a, first = .ok a ∧ next a = .ok result := by
  cases first with
  | error failure =>
    constructor
    · intro hresult
      cases hresult
    · rintro ⟨a, ha, -⟩
      cases ha
  | ok a =>
    constructor
    · intro hresult
      exact ⟨a, rfl, hresult⟩
    · rintro ⟨other, hother, hresult⟩
      cases hother
      exact hresult

theorem bind_eq_error {first : Except ε α} {next : α → Except ε β} {failure : ε} :
    (first >>= next) = .error failure ↔
      first = .error failure ∨ ∃ a, first = .ok a ∧ next a = .error failure := by
  cases first with
  | error other =>
    constructor
    · intro hresult
      exact .inl (Except.error.inj hresult ▸ rfl)
    · rintro (heq | ⟨a, ha, -⟩)
      · exact Except.error.inj heq ▸ rfl
      · cases ha
  | ok a =>
    constructor
    · intro hresult
      exact .inr ⟨a, rfl, hresult⟩
    · rintro (heq | ⟨other, hother, hresult⟩)
      · cases heq
      · cases hother
        exact hresult

variable {f : α → Except ε β} {xs : List α} {ys : List β}

theorem mapM_eq_ok_iff :
    xs.mapM f = .ok ys ↔ List.Forall₂ (fun x y => f x = .ok y) xs ys := by
  induction xs generalizing ys with
  | nil =>
    rw [List.mapM_nil, List.forall₂_nil_left_iff]
    constructor
    · intro heq
      injection heq with heq
      exact heq.symm
    · rintro rfl
      rfl
  | cons x xs ih =>
    rw [List.mapM_cons, List.forall₂_cons_left_iff]
    constructor
    · intro heq
      cases hx : f x with
      | error failure =>
        rw [hx] at heq
        cases heq
      | ok y =>
        cases hxs : xs.mapM f with
        | error failure =>
          rw [hx, hxs] at heq
          cases heq
        | ok rest =>
          rw [hx, hxs] at heq
          injection heq with heq
          exact ⟨y, rest, rfl, ih.mp hxs, heq.symm⟩
    · rintro ⟨y, rest, hx, hrest, rfl⟩
      rw [hx, ih.mpr hrest]
      rfl

theorem exists_of_mem_of_mapM_eq_ok {x : α}
    (hmap : xs.mapM f = .ok ys) (hmem : x ∈ xs) : ∃ y, f x = .ok y := by
  rw [mapM_eq_ok_iff] at hmap
  induction hmap with
  | nil => cases hmem
  | @cons _ y _ _ hfirst _ ih =>
    rcases List.mem_cons.mp hmem with rfl | hrest
    · exact ⟨y, hfirst⟩
    · exact ih hrest

theorem mapM_eq_some_iff {f : α → Option β} :
    xs.mapM f = some ys ↔ List.Forall₂ (fun x y => f x = some y) xs ys := by
  induction xs generalizing ys with
  | nil =>
    rw [List.mapM_nil, List.forall₂_nil_left_iff]
    exact ⟨fun heq => (Option.some.inj heq).symm, fun heq => congrArg some heq.symm⟩
  | cons x xs ih =>
    rw [List.mapM_cons, List.forall₂_cons_left_iff]
    constructor
    · intro heq
      obtain ⟨y, hx, hrest⟩ := Option.bind_eq_some_iff.mp heq
      obtain ⟨rest, hxs, hys⟩ := Option.bind_eq_some_iff.mp hrest
      exact ⟨y, rest, hx, ih.mp hxs, (Option.some.inj hys).symm⟩
    · rintro ⟨y, rest, hx, hrest, rfl⟩
      rw [hx, ih.mpr hrest]
      rfl

theorem exists_mapM_mapM {g : β → Except ε γ} {zs : List γ} :
    (∃ ys, xs.mapM f = .ok ys ∧ ys.mapM g = .ok zs) ↔ xs.mapM (fun x => f x >>= g) = .ok zs := by
  induction xs generalizing zs with
  | nil =>
    constructor
    · rintro ⟨ys, hys, hzs⟩
      injection hys with hys
      subst hys
      exact hzs
    · intro hzs
      exact ⟨[], rfl, hzs⟩
  | cons x xs ih =>
    rw [mapM_eq_ok_iff, List.forall₂_cons_left_iff]
    constructor
    · rintro ⟨ys, hys, hzs⟩
      obtain ⟨y, rest, hx, hrest, rfl⟩ := List.forall₂_cons_left_iff.mp (mapM_eq_ok_iff.mp hys)
      obtain ⟨z, last, hy, hlast, rfl⟩ := List.forall₂_cons_left_iff.mp (mapM_eq_ok_iff.mp hzs)
      refine ⟨z, last, ?_, ?_, rfl⟩
      · rw [hx]
        exact hy
      · exact mapM_eq_ok_iff.mp (ih.mp ⟨rest, mapM_eq_ok_iff.mpr hrest, mapM_eq_ok_iff.mpr hlast⟩)
    · rintro ⟨z, last, hz, hlast, rfl⟩
      obtain ⟨rest, hrest, hzs⟩ := ih.mpr (mapM_eq_ok_iff.mpr hlast)
      cases hx : f x with
      | error failure =>
        rw [hx] at hz
        cases hz
      | ok y =>
        rw [hx] at hz
        refine ⟨y :: rest, ?_, ?_⟩
        · rw [List.mapM_cons, hx, hrest]
          rfl
        · have hy : g y = .ok z := hz
          rw [List.mapM_cons, hy, hzs]
          rfl

theorem exists_mapM_forall₂ {R : β → α → Prop} :
    (∃ ys, xs.mapM f = .ok ys ∧ List.Forall₂ R ys xs) ↔ ∀ x ∈ xs, ∃ y, f x = .ok y ∧ R y x := by
  induction xs with
  | nil =>
    constructor
    · intro _ x hx
      cases hx
    · intro _
      exact ⟨[], rfl, List.Forall₂.nil⟩
  | cons x xs ih =>
    rw [List.forall_mem_cons, ← ih]
    constructor
    · rintro ⟨ys, hys, hrelated⟩
      obtain ⟨y, rest, hx, hrest, rfl⟩ := List.forall₂_cons_left_iff.mp (mapM_eq_ok_iff.mp hys)
      cases hrelated with
      | cons hy hothers =>
        exact ⟨⟨y, hx, hy⟩, rest, mapM_eq_ok_iff.mpr hrest, hothers⟩
    · rintro ⟨⟨y, hx, hy⟩, rest, hrest, hothers⟩
      refine ⟨y :: rest, ?_, List.Forall₂.cons hy hothers⟩
      rw [List.mapM_cons, hx, hrest]
      rfl

theorem mapM_eq_ok_map {g : α → β}
    (hf : ∀ x ∈ xs, f x = .ok (g x)) : xs.mapM f = .ok (xs.map g) := by
  rw [mapM_eq_ok_iff, List.forall₂_map_right_iff, List.forall₂_same]
  exact hf

theorem anyM_eq_ok {ε α : Type} {test : α → Except ε Bool} {select : α → Bool} {xs : List α}
    (htest : ∀ x ∈ xs, test x = .ok (select x)) : xs.anyM test = .ok (xs.any select) := by
  induction xs with
  | nil => rfl
  | cons x xs ih =>
    rw [List.anyM, htest x List.mem_cons_self, List.any_cons]
    cases hselect : select x with
    | true => rfl
    | false => exact ih fun y hy => htest y (List.mem_cons_of_mem _ hy)

end Foundation
