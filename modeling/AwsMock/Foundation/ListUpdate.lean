import Mathlib.Data.List.Basic
import Mathlib.Data.List.Forall2

/-! # Selective rewriting of lists

Bulk updates of a store rewrite the elements a filter selects and leave the
others in place; a find-and-update rewrites the first of them only. Both keep
the length and the order of the list.
-/

namespace Foundation

variable {α β : Type*}

def rewriteWhere (select : α → Bool) (rewrite : α → α) (xs : List α) : List α :=
  xs.map fun x => if select x then rewrite x else x

def rewriteFirst (select : α → Bool) (rewrite : α → α) : List α → List α
  | [] => []
  | x :: xs => if select x then rewrite x :: xs else x :: rewriteFirst select rewrite xs

/-- Put an element among the others, at the end if there are too few of them. -/
def insertAt (place : Nat) (x : α) (xs : List α) : List α := xs.take place ++ x :: xs.drop place

theorem perm_insertAt (place : Nat) (x : α) (xs : List α) :
    (insertAt place x xs).Perm (x :: xs) := by
  refine List.perm_middle.trans ?_
  rw [List.take_append_drop]

theorem mem_insertAt {place : Nat} {x y : α} {xs : List α} :
    y ∈ insertAt place x xs ↔ y = x ∨ y ∈ xs := by
  rw [(perm_insertAt place x xs).mem_iff, List.mem_cons]

theorem nodup_map_insertAt {f : α → β} {x : α} {xs : List α} (hxs : (xs.map f).Nodup)
    (hx : ∀ y ∈ xs, f y ≠ f x) (place : Nat) : ((insertAt place x xs).map f).Nodup := by
  rw [((perm_insertAt place x xs).map f).nodup_iff, List.map_cons, List.nodup_cons]
  refine ⟨fun hmem => ?_, hxs⟩
  obtain ⟨y, hy, heq⟩ := List.mem_map.mp hmem
  exact hx y hy heq

section

variable {select : α → Bool} {rewrite : α → α} {xs : List α}

@[simp] theorem rewriteWhere_nil : rewriteWhere select rewrite [] = [] := rfl

@[simp] theorem rewriteWhere_cons (x : α) :
    rewriteWhere select rewrite (x :: xs) =
      (if select x then rewrite x else x) :: rewriteWhere select rewrite xs := rfl

theorem mem_rewriteWhere {y : α} :
    y ∈ rewriteWhere select rewrite xs ↔ ∃ x ∈ xs, (if select x then rewrite x else x) = y :=
  List.mem_map

theorem rewriteWhere_of_none (hnone : ∀ x ∈ xs, select x = false) :
    rewriteWhere select rewrite xs = xs := by
  induction xs with
  | nil => rfl
  | cons x xs ih =>
    rw [rewriteWhere_cons, hnone x List.mem_cons_self,
      ih fun y hy => hnone y (List.mem_cons_of_mem _ hy)]
    rfl

theorem map_rewriteWhere_of_preserved (f : α → β)
    (hf : ∀ x ∈ xs, select x = true → f (rewrite x) = f x) :
    (rewriteWhere select rewrite xs).map f = xs.map f := by
  rw [rewriteWhere, List.map_map]
  apply List.map_congr_left
  intro x hx
  by_cases hselect : select x = true
  · simp [hselect, hf x hx hselect]
  · simp [hselect]

@[simp] theorem rewriteFirst_nil : rewriteFirst select rewrite [] = [] := rfl

theorem rewriteFirst_cons (x : α) :
    rewriteFirst select rewrite (x :: xs) =
      if select x then rewrite x :: xs else x :: rewriteFirst select rewrite xs := rfl

theorem rewriteFirst_of_none (hnone : ∀ x ∈ xs, select x = false) :
    rewriteFirst select rewrite xs = xs := by
  induction xs with
  | nil => rfl
  | cons x xs ih =>
    rw [rewriteFirst_cons, hnone x List.mem_cons_self,
      ih fun y hy => hnone y (List.mem_cons_of_mem _ hy)]
    rfl

theorem filter_rewriteFirst_of_dropped {keep : α → Bool}
    (hdropped : ∀ x ∈ xs, select x = true → keep x = false ∧ keep (rewrite x) = false) :
    (rewriteFirst select rewrite xs).filter keep = xs.filter keep := by
  induction xs with
  | nil => rfl
  | cons x xs ih =>
    rw [rewriteFirst_cons]
    split
    next hselect =>
      obtain ⟨hx, hrewrite⟩ := hdropped x List.mem_cons_self hselect
      rw [List.filter_cons_of_neg (Bool.eq_false_iff.mp hrewrite),
        List.filter_cons_of_neg (Bool.eq_false_iff.mp hx)]
    next =>
      rw [List.filter_cons, List.filter_cons, ih fun y hy => hdropped y (List.mem_cons_of_mem x hy)]

theorem filter_rewriteFirst_of_kept {keep : α → Bool}
    (hkept : ∀ x ∈ xs, select x = true → keep x = true ∧ keep (rewrite x) = true) :
    (rewriteFirst select rewrite xs).filter keep =
      rewriteFirst select rewrite (xs.filter keep) := by
  induction xs with
  | nil => rfl
  | cons x xs ih =>
    rw [rewriteFirst_cons]
    split
    next hselect =>
      obtain ⟨hx, hrewrite⟩ := hkept x List.mem_cons_self hselect
      rw [List.filter_cons_of_pos hx, List.filter_cons_of_pos hrewrite, rewriteFirst_cons,
        if_pos hselect]
    next hselect =>
      have hrest := ih fun y hy => hkept y (List.mem_cons_of_mem x hy)
      by_cases hx : keep x = true
      · rw [List.filter_cons_of_pos hx, List.filter_cons_of_pos hx, rewriteFirst_cons,
          if_neg hselect, hrest]
      · rw [List.filter_cons_of_neg hx, List.filter_cons_of_neg hx, hrest]

theorem rewriteFirst_congr {select' : α → Bool} (hselect : ∀ x ∈ xs, select x = select' x) :
    rewriteFirst select rewrite xs = rewriteFirst select' rewrite xs := by
  induction xs with
  | nil => rfl
  | cons x xs ih =>
    rw [rewriteFirst_cons, rewriteFirst_cons, hselect x List.mem_cons_self,
      ih fun y hy => hselect y (List.mem_cons_of_mem _ hy)]

theorem of_mem_rewriteFirst {y : α} (hmem : y ∈ rewriteFirst select rewrite xs) :
    y ∈ xs ∨ ∃ x ∈ xs, select x = true ∧ y = rewrite x := by
  induction xs with
  | nil => cases hmem
  | cons x xs ih =>
    rw [rewriteFirst_cons] at hmem
    split at hmem
    next hselect =>
      rcases List.mem_cons.mp hmem with rfl | hrest
      · exact Or.inr ⟨x, List.mem_cons_self, hselect, rfl⟩
      · exact Or.inl (List.mem_cons_of_mem _ hrest)
    next =>
      rcases List.mem_cons.mp hmem with rfl | hrest
      · exact Or.inl List.mem_cons_self
      · rcases ih hrest with hold | ⟨old, hold, hselect, heq⟩
        · exact Or.inl (List.mem_cons_of_mem _ hold)
        · exact Or.inr ⟨old, List.mem_cons_of_mem _ hold, hselect, heq⟩

theorem exists_mem_rewriteFirst {x : α} (hmem : x ∈ xs) (hselect : select x = true) :
    ∃ y ∈ xs, select y = true ∧ rewrite y ∈ rewriteFirst select rewrite xs := by
  induction xs with
  | nil => cases hmem
  | cons head xs ih =>
    rw [rewriteFirst_cons]
    split
    next hhead => exact ⟨head, List.mem_cons_self, hhead, List.mem_cons_self⟩
    next hhead =>
      rcases List.mem_cons.mp hmem with rfl | hrest
      · exact absurd hselect hhead
      · obtain ⟨y, hy, hselected, hrewritten⟩ := ih hrest
        exact ⟨y, List.mem_cons_of_mem _ hy, hselected, List.mem_cons_of_mem _ hrewritten⟩

theorem map_rewriteFirst_of_preserved (f : α → β)
    (hf : ∀ x ∈ xs, select x = true → f (rewrite x) = f x) :
    (rewriteFirst select rewrite xs).map f = xs.map f := by
  induction xs with
  | nil => rfl
  | cons x xs ih =>
    rw [rewriteFirst_cons]
    split
    next hselect =>
      simp [hf x List.mem_cons_self hselect]
    next =>
      simp [ih fun y hy => hf y (List.mem_cons_of_mem _ hy)]

theorem map_rewriteFirst_of_find? {f : α → β} {x : α} (hfound : xs.find? select = some x)
    (hf : f (rewrite x) = f x) : (rewriteFirst select rewrite xs).map f = xs.map f := by
  induction xs with
  | nil => rfl
  | cons y xs ih =>
    rw [List.find?_cons] at hfound
    rw [rewriteFirst_cons]
    cases hselect : select y with
    | true =>
      rw [hselect] at hfound
      cases hfound
      rw [if_pos rfl, List.map_cons, List.map_cons, hf]
    | false =>
      rw [hselect] at hfound
      rw [if_neg Bool.false_ne_true, List.map_cons, List.map_cons, ih hfound]

theorem count_flatMap_rewriteFirst [BEq β] {f : α → List β} {x : α}
    (hfound : xs.find? select = some x) (y : β) :
    ((rewriteFirst select rewrite xs).flatMap f).count y + (f x).count y =
      (xs.flatMap f).count y + (f (rewrite x)).count y := by
  induction xs with
  | nil => cases hfound
  | cons z xs ih =>
    rw [List.find?_cons] at hfound
    rw [rewriteFirst_cons]
    cases hselect : select z with
    | true =>
      rw [hselect] at hfound
      cases hfound
      rw [if_pos rfl, List.flatMap_cons, List.flatMap_cons, List.count_append, List.count_append]
      omega
    | false =>
      rw [hselect] at hfound
      have hrest := ih hfound
      rw [if_neg Bool.false_ne_true, List.flatMap_cons, List.flatMap_cons, List.count_append,
        List.count_append]
      omega

theorem rewriteFirst_eq_map [DecidableEq β] {key : α → β} (hdistinct : (xs.map key).Nodup) :
    rewriteFirst select rewrite xs =
      xs.map fun x => if (xs.find? select).map key = some (key x) then rewrite x else x := by
  induction xs with
  | nil => rfl
  | cons x xs ih =>
    rw [List.map_cons, List.nodup_cons] at hdistinct
    have hother : ∀ y ∈ xs, key x ≠ key y := fun y hy heq =>
      hdistinct.1 (heq ▸ List.mem_map_of_mem hy)
    rw [rewriteFirst_cons, List.find?_cons, List.map_cons]
    cases select x with
    | true =>
      have hrest : xs.map (fun y => if some (key x) = some (key y) then rewrite y else y) =
          xs := by
        conv_rhs => rw [← List.map_id xs]
        apply List.map_congr_left
        intro y hy
        exact if_neg fun heq => hother y hy (Option.some.inj heq)
      rw [if_pos rfl, Option.map_some, if_pos rfl, hrest]
    | false =>
      have hhead : (xs.find? select).map key ≠ some (key x) := by
        intro heq
        obtain ⟨y, hy, hkey⟩ := Option.map_eq_some_iff.mp heq
        exact hother y (List.mem_of_find?_eq_some hy) hkey.symm
      rw [if_neg Bool.false_ne_true, if_neg hhead, ih hdistinct.2]

theorem find?_rewriteFirst {x : α} (hfound : xs.find? select = some x)
    (hselect : select (rewrite x) = true) :
    (rewriteFirst select rewrite xs).find? select = some (rewrite x) := by
  induction xs with
  | nil => cases hfound
  | cons y xs ih =>
    rw [List.find?_cons] at hfound
    rw [rewriteFirst_cons]
    cases hy : select y with
    | true =>
      rw [hy] at hfound
      cases hfound
      rw [if_pos rfl, List.find?_cons, hselect]
    | false =>
      rw [hy] at hfound
      rw [if_neg Bool.false_ne_true, List.find?_cons, hy]
      exact ih hfound

theorem find?_rewriteFirst_of_narrow {wide : α → Bool} {x : α} (hfound : xs.find? wide = some x)
    (hselect : select x = true) (himp : ∀ y ∈ xs, select y = true → wide y = true)
    (hwide : wide (rewrite x) = true) :
    (rewriteFirst select rewrite xs).find? wide = some (rewrite x) := by
  induction xs with
  | nil => cases hfound
  | cons y xs ih =>
    rw [List.find?_cons] at hfound
    rw [rewriteFirst_cons]
    cases hy : wide y with
    | true =>
      rw [hy] at hfound
      cases hfound
      rw [if_pos hselect, List.find?_cons, hwide]
    | false =>
      rw [hy] at hfound
      have hnot : ¬ select y = true := fun hselect => by
        have hwide := himp y List.mem_cons_self hselect
        rw [hy] at hwide
        cases hwide
      rw [if_neg hnot, List.find?_cons, hy]
      exact ih hfound fun z hz => himp z (List.mem_cons_of_mem _ hz)

theorem find?_rewriteFirst_of_disjoint {other : α → Bool}
    (hbefore : ∀ x, select x = true → other x = false)
    (hafter : ∀ x, select x = true → other (rewrite x) = false) :
    (rewriteFirst select rewrite xs).find? other = xs.find? other := by
  induction xs with
  | nil => rfl
  | cons x xs ih =>
    rw [rewriteFirst_cons]
    split
    next hselect =>
      rw [List.find?_cons, List.find?_cons, hbefore x hselect, hafter x hselect]
    next => rw [List.find?_cons, List.find?_cons, ih]

theorem map_rewriteFirst {f : α → β} {select' : β → Bool} {rewrite' : β → β}
    (hselect : ∀ x ∈ xs, select' (f x) = select x)
    (hrewrite : ∀ x ∈ xs, select x = true → f (rewrite x) = rewrite' (f x)) :
    (rewriteFirst select rewrite xs).map f = rewriteFirst select' rewrite' (xs.map f) := by
  induction xs with
  | nil => rfl
  | cons x xs ih =>
    have hrest := ih (fun y hy => hselect y (List.mem_cons_of_mem _ hy))
      fun y hy => hrewrite y (List.mem_cons_of_mem _ hy)
    rw [rewriteFirst_cons, List.map_cons, rewriteFirst_cons, hselect x List.mem_cons_self]
    split
    next hx => rw [List.map_cons, hrewrite x List.mem_cons_self hx]
    next => rw [List.map_cons, hrest]

theorem rewriteFirst_eq_rewriteFirst_iff {narrow : α → Bool} {rewrite' : α → α}
    (himp : ∀ x ∈ xs, narrow x = true → select x = true)
    (hmove : ∀ x ∈ xs, narrow x = false → rewrite x ≠ x) :
    rewriteFirst select rewrite xs = rewriteFirst narrow rewrite' xs ↔
      ∀ x, xs.find? select = some x → narrow x = true ∧ rewrite x = rewrite' x := by
  induction xs with
  | nil => simp
  | cons x xs ih =>
    rw [rewriteFirst_cons, rewriteFirst_cons, List.find?_cons]
    cases hselect : select x with
    | true =>
      rw [if_pos rfl]
      cases hnarrow : narrow x with
      | true =>
        rw [if_pos rfl, List.cons.injEq, and_iff_left rfl]
        constructor
        · rintro hequal other hother
          obtain rfl := Option.some.inj hother
          exact ⟨hnarrow, hequal⟩
        · intro hfirst
          exact (hfirst x rfl).2
      | false =>
        rw [if_neg Bool.false_ne_true]
        constructor
        · intro hequal
          exact absurd (List.cons.inj hequal).1 (hmove x List.mem_cons_self hnarrow)
        · intro hfirst
          exact absurd (hfirst x rfl).1 (ne_true_of_eq_false hnarrow)
    | false =>
      have hnarrow : narrow x = false :=
        eq_false_of_ne_true fun htrue => by
          rw [himp x List.mem_cons_self htrue] at hselect
          cases hselect
      rw [hnarrow, if_neg Bool.false_ne_true, if_neg Bool.false_ne_true, List.cons_inj_right]
      exact ih (fun other hother => himp other (List.mem_cons_of_mem _ hother))
        fun other hother => hmove other (List.mem_cons_of_mem _ hother)

theorem find?_of_imp {narrow : α → Bool} {x : α}
    (himp : ∀ y, narrow y = true → select y = true) (hfound : xs.find? select = some x)
    (hnarrow : narrow x = true) : xs.find? narrow = some x := by
  induction xs with
  | nil => cases hfound
  | cons y xs ih =>
    rw [List.find?_cons] at hfound ⊢
    cases hselect : select y with
    | true =>
      rw [hselect] at hfound
      obtain rfl := Option.some.inj hfound
      rw [hnarrow]
    | false =>
      rw [hselect] at hfound
      cases hother : narrow y with
      | true =>
        rw [himp y hother] at hselect
        cases hselect
      | false => exact ih hfound

theorem rewriteFirst_append {before after : List α} {x : α}
    (hbefore : ∀ y ∈ before, select y = false) (hx : select x = true) :
    rewriteFirst select rewrite (before ++ x :: after) = before ++ rewrite x :: after := by
  induction before with
  | nil => simp [rewriteFirst_cons, hx]
  | cons y before ih =>
    rw [List.cons_append, rewriteFirst_cons, hbefore y List.mem_cons_self,
      ih fun z hz => hbefore z (List.mem_cons_of_mem _ hz)]
    rfl

end

section Settle

variable (select : α → Bool) (move : β → α → α)

def settle (places : List β) (x : α) : α :=
  places.foldl (fun x place => if select x then move place x else x) x

variable {select move} {stays : β → Bool} {places : List β} {x : α}

theorem settle_of_not (hselect : select x = false) : settle select move places x = x := by
  induction places with
  | nil => rfl
  | cons place places ih =>
    rw [settle, List.foldl_cons, hselect]
    exact ih

variable (hstays : ∀ place x, select x = true → select (move place x) = stays place)
include hstays

theorem settle_of_find? (hmove : ∀ first second x, move second (move first x) = move second x)
    {place : β} (hselect : select x = true)
    (hfind : places.find? (fun place => !stays place) = some place) :
    settle select move places x = move place x := by
  induction places generalizing x with
  | nil => cases hfind
  | cons head rest ih =>
    rw [settle, List.foldl_cons, if_pos hselect]
    rw [List.find?_cons] at hfind
    cases hhead : stays head with
    | true =>
      rw [hhead] at hfind
      have hrest := ih ((hstays head x hselect).trans hhead) hfind
      rw [hmove] at hrest
      exact hrest
    | false =>
      rw [hhead] at hfind
      injection hfind with hplace
      subst hplace
      exact settle_of_not ((hstays head x hselect).trans hhead)

theorem select_settle_of_find? (hselect : select x = true)
    (hfind : places.find? (fun place => !stays place) = none) :
    select (settle select move places x) = true := by
  induction places generalizing x with
  | nil => exact hselect
  | cons head rest ih =>
    rw [List.find?_cons] at hfind
    cases hhead : stays head with
    | true =>
      rw [hhead] at hfind
      rw [settle, List.foldl_cons, if_pos hselect]
      exact ih ((hstays head x hselect).trans hhead) hfind
    | false =>
      rw [hhead] at hfind
      cases hfind

end Settle

section Related

variable {R : α → β → Prop} {xs : List α} {ys : List β}
variable {selectLeft : α → Bool} {selectRight : β → Bool}
variable {rewriteLeft : α → α} {rewriteRight : β → β}

theorem exists_of_forall₂_right (hrel : List.Forall₂ R xs ys) {y : β} (hy : y ∈ ys) :
    ∃ x ∈ xs, R x y := by
  induction hrel with
  | nil => cases hy
  | @cons x z xs zs hxz _ ih =>
    rcases List.mem_cons.mp hy with rfl | hrest
    · exact ⟨x, List.mem_cons_self, hxz⟩
    · obtain ⟨found, hfound, hstands⟩ := ih hrest
      exact ⟨found, List.mem_cons_of_mem _ hfound, hstands⟩

theorem exists_forall₂_of_right (hrel : ∀ y ∈ ys, ∃ x, R x y) : ∃ xs, List.Forall₂ R xs ys := by
  induction ys with
  | nil => exact ⟨[], List.Forall₂.nil⟩
  | cons y ys ih =>
    obtain ⟨x, hxy⟩ := hrel y List.mem_cons_self
    obtain ⟨rest, hrest⟩ := ih fun z hz => hrel z (List.mem_cons_of_mem _ hz)
    exact ⟨x :: rest, List.Forall₂.cons hxy hrest⟩

theorem forall₂_and {S : α → β → Prop} (hfirst : List.Forall₂ R xs ys)
    (hsecond : List.Forall₂ S xs ys) : List.Forall₂ (fun x y => R x y ∧ S x y) xs ys := by
  induction hfirst with
  | nil => exact List.Forall₂.nil
  | cons hxy _ ih =>
    cases hsecond with
    | cons hother hrest => exact List.Forall₂.cons ⟨hxy, hother⟩ (ih hrest)

theorem forall₂_of_common {γ : Type*} {S : γ → β → Prop} {T : α → γ → Prop} {zs : List γ}
    (hfirst : List.Forall₂ R xs ys) (hsecond : List.Forall₂ S zs ys)
    (hcommon : ∀ x z y, R x y → S z y → T x z) : List.Forall₂ T xs zs := by
  induction hfirst generalizing zs with
  | nil =>
    cases hsecond
    exact List.Forall₂.nil
  | cons hxy _ ih =>
    cases hsecond with
    | cons hzy hrest => exact List.Forall₂.cons (hcommon _ _ _ hxy hzy) (ih hrest)

variable (hrel : List.Forall₂ R xs ys)
include hrel

theorem forall₂_mem_right {S : α → β → Prop}
    (himp : ∀ x, ∀ y ∈ ys, R x y → S x y) : List.Forall₂ S xs ys := by
  induction hrel with
  | nil => exact List.Forall₂.nil
  | @cons x y xs ys hxy _ ih =>
    refine List.Forall₂.cons (himp x y List.mem_cons_self hxy) (ih ?_)
    exact fun x y hy => himp x y (List.mem_cons_of_mem _ hy)

theorem exists_of_forall₂_left {x : α} (hx : x ∈ xs) :
    ∃ y ∈ ys, R x y :=
  exists_of_forall₂_right hrel.flip hx

variable (hselect : ∀ x y, R x y → selectLeft x = selectRight y)
include hselect

theorem forall₂_rewriteWhere
    (hrewrite : ∀ x y, R x y → selectRight y = true → R (rewriteLeft x) (rewriteRight y)) :
    List.Forall₂ R (rewriteWhere selectLeft rewriteLeft xs)
      (rewriteWhere selectRight rewriteRight ys) := by
  induction hrel with
  | nil => exact List.Forall₂.nil
  | @cons x y xs ys hxy _ ih =>
    rw [rewriteWhere_cons, rewriteWhere_cons, hselect x y hxy]
    refine List.Forall₂.cons ?_ ih
    split
    next hsel => exact hrewrite x y hxy hsel
    next => exact hxy

theorem forall₂_rewriteFirst
    (hrewrite : ∀ x y, R x y → selectRight y = true → R (rewriteLeft x) (rewriteRight y)) :
    List.Forall₂ R (rewriteFirst selectLeft rewriteLeft xs)
      (rewriteFirst selectRight rewriteRight ys) := by
  induction hrel with
  | nil => exact List.Forall₂.nil
  | @cons x y xs ys hxy hrest ih =>
    rw [rewriteFirst_cons, rewriteFirst_cons, hselect x y hxy]
    split
    next hsel => exact List.Forall₂.cons (hrewrite x y hxy hsel) hrest
    next => exact List.Forall₂.cons hxy ih

theorem forall₂_filter :
    List.Forall₂ R (xs.filter selectLeft) (ys.filter selectRight) := by
  induction hrel with
  | nil => exact List.Forall₂.nil
  | @cons x y xs ys hxy _ ih =>
    rw [List.filter_cons, List.filter_cons, hselect x y hxy]
    split
    · exact List.Forall₂.cons hxy ih
    · exact ih

theorem forall₂_eraseP :
    List.Forall₂ R (xs.eraseP selectLeft) (ys.eraseP selectRight) := by
  induction hrel with
  | nil => exact List.Forall₂.nil
  | @cons x y xs ys hxy hrest ih =>
    rw [List.eraseP_cons, List.eraseP_cons, hselect x y hxy]
    cases selectRight y with
    | true => exact hrest
    | false => exact List.Forall₂.cons hxy ih

theorem forall₂_countP :
    xs.countP selectLeft = ys.countP selectRight := by
  induction hrel with
  | nil => rfl
  | @cons x y xs ys hxy _ ih =>
    rw [List.countP_cons, List.countP_cons, hselect x y hxy, ih]

theorem forall₂_any :
    xs.any selectLeft = ys.any selectRight := by
  induction hrel with
  | nil => rfl
  | @cons x y xs ys hxy _ ih =>
    rw [List.any_cons, List.any_cons, hselect x y hxy, ih]

theorem forall₂_find? :
    Option.Rel R (xs.find? selectLeft) (ys.find? selectRight) := by
  induction hrel with
  | nil => exact Option.Rel.none
  | @cons x y xs ys hxy _ ih =>
    rw [List.find?_cons, List.find?_cons, hselect x y hxy]
    cases selectRight y with
    | true => exact Option.Rel.some hxy
    | false => exact ih

end Related

section Removal

variable {first second : α → Bool} {xs : List α}

theorem filter_eq_filter_iff :
    xs.filter first = xs.filter second ↔ ∀ x ∈ xs, first x = second x := by
  constructor
  · intro heq x hx
    have hfirst := @List.mem_filter _ first xs x
    have hsecond := @List.mem_filter _ second xs x
    rw [heq] at hfirst
    have hiff := hfirst.symm.trans hsecond
    rw [Bool.eq_iff_iff]
    exact ⟨fun hx' => (hiff.mp ⟨hx, hx'⟩).2, fun hx' => (hiff.mpr ⟨hx, hx'⟩).2⟩
  · exact List.filter_congr

theorem eraseP_eq_filter_iff (hnodup : xs.Nodup)
    (himp : ∀ x, second x = true → first x = true) (hexists : ∃ x ∈ xs, second x = true) :
    xs.eraseP first = xs.filter (fun x => !second x) ↔
      ∀ x ∈ xs, second x = true → xs.find? first = some x := by
  induction xs with
  | nil =>
    obtain ⟨x, hx, _⟩ := hexists
    cases hx
  | cons x xs ih =>
    obtain ⟨hnew, hnodup⟩ := List.nodup_cons.mp hnodup
    cases hfirst : first x with
    | true =>
      rw [List.eraseP_cons_of_pos hfirst, List.find?_cons_of_pos hfirst]
      cases hsecond : second x with
      | true =>
        rw [List.filter_cons_of_neg (by simp [hsecond])]
        constructor
        · intro heq y hy hselect
          rcases List.mem_cons.mp hy with rfl | hrest
          · rfl
          · rw [heq] at hrest
            have hnot := (List.mem_filter.mp hrest).2
            rw [hselect] at hnot
            cases hnot
        · intro honly
          refine (List.filter_eq_self.mpr ?_).symm
          intro y hy
          rw [Bool.not_eq_true']
          by_contra hselect
          have hsame := honly y (List.mem_cons_of_mem _ hy) (eq_true_of_ne_false hselect)
          rw [Option.some.inj hsame] at hnew
          exact hnew hy
      | false =>
        rw [List.filter_cons_of_pos (by simp [hsecond])]
        constructor
        · intro heq
          refine absurd ?_ hnew
          rw [heq]
          exact List.mem_cons_self
        · intro honly
          obtain ⟨y, hy, hselect⟩ := hexists
          have hsame := Option.some.inj (honly y hy hselect)
          rw [hsame, hselect] at hsecond
          cases hsecond
    | false =>
      have hsecond : second x = false := by
        by_contra hselect
        rw [himp x (eq_true_of_ne_false hselect)] at hfirst
        cases hfirst
      have hrest : ∃ y ∈ xs, second y = true := by
        obtain ⟨y, hy, hselect⟩ := hexists
        rcases List.mem_cons.mp hy with rfl | hmem
        · rw [hselect] at hsecond
          cases hsecond
        · exact ⟨y, hmem, hselect⟩
      have hne : ¬first x = true := Bool.eq_false_iff.mp hfirst
      rw [List.eraseP_cons_of_neg hne, List.find?_cons_of_neg hne,
        List.filter_cons_of_pos (by simp [hsecond]), List.cons_inj_right, ih hnodup hrest]
      constructor
      · intro honly y hy hselect
        rcases List.mem_cons.mp hy with rfl | hmem
        · rw [hselect] at hsecond
          cases hsecond
        · exact honly y hmem hselect
      · exact fun honly y hy => honly y (List.mem_cons_of_mem _ hy)

end Removal

section Counts

variable {α : Type*}

theorem forall_of_countP_eq {weak strong : α → Bool} {xs : List α}
    (himp : ∀ x ∈ xs, strong x = true → weak x = true)
    (hcount : xs.countP weak = xs.countP strong) : ∀ x ∈ xs, weak x = true → strong x = true := by
  induction xs with
  | nil => exact fun x hx => absurd hx List.not_mem_nil
  | cons x xs ih =>
    have hrest : xs.countP strong ≤ xs.countP weak :=
      List.countP_mono_left fun y hy => himp y (List.mem_cons_of_mem _ hy)
    have hhead := himp x List.mem_cons_self
    rw [List.countP_cons, List.countP_cons] at hcount
    intro y hy hweak
    rcases List.mem_cons.mp hy with rfl | hlater
    · by_contra hstrong
      rw [if_pos hweak, if_neg hstrong] at hcount
      omega
    · refine ih (fun z hz => himp z (List.mem_cons_of_mem _ hz)) ?_ y hlater hweak
      by_cases hstrong : strong x = true
      · rw [if_pos hstrong, if_pos (hhead hstrong)] at hcount
        omega
      · rw [if_neg hstrong] at hcount
        split at hcount <;> omega

theorem length_eq_countP_add (select : α → Bool) (xs : List α) :
    xs.length = xs.countP select + (xs.filter fun x => !select x).length := by
  have hsum := List.length_eq_countP_add_countP select (l := xs)
  rw [hsum]
  simp [List.countP_eq_length_filter]

theorem countP_eraseIdx {select : α → Bool} {xs : List α} {index : Nat} {x : α}
    (hindex : xs[index]? = some x) :
    xs.countP select = (xs.eraseIdx index).countP select + if select x = true then 1 else 0 := by
  obtain ⟨hlength, rfl⟩ := List.getElem?_eq_some_iff.mp hindex
  have hsplit := List.take_append_drop index xs
  rw [List.drop_eq_getElem_cons hlength] at hsplit
  rw [List.eraseIdx_eq_take_drop_succ, List.countP_append]
  conv_lhs => rw [← hsplit, List.countP_append, List.countP_cons]
  omega

end Counts

section Positions

variable {xs : List α} {index : Nat} {f : α → α}

theorem getElem?_modify_of_some {x : α} (hindex : xs[index]? = some x) (other : Nat) :
    (xs.modify index f)[other]? = if other = index then some (f x) else xs[other]? := by
  rw [List.getElem?_modify]
  by_cases hother : other = index
  · subst hother
    rw [hindex, if_pos rfl]
    simp
  · rw [if_neg hother]
    simp [Ne.symm hother]

theorem modify_of_fixed (hfixed : ∀ x, xs[index]? = some x → f x = x) :
    xs.modify index f = xs := by
  apply List.ext_getElem?
  intro other
  rw [List.getElem?_modify]
  by_cases hother : index = other
  · subst hother
    cases hfound : xs[index]? with
    | none => rfl
    | some x => simp [hfixed x hfound]
  · simp [hother]

end Positions

end Foundation
