import Mathlib.Data.List.Find
import Mathlib.Data.List.Induction
import Mathlib.Data.List.Nodup
import Mathlib.Logic.Function.Basic
import AwsMock.Foundation.ListUpdate

/-! # Lists read by key, and logs of writes

A list whose elements have keys is read as the map from a key to the first
element that has it. Putting an element replaces the one under its key or adds
it at the end; removing a key drops what is under it. A log of writes leaves
under a key what the last write to that key put there.
-/

namespace Foundation

inductive Write (Key Value : Type*) where
  | put (key : Key) (value : Value)
  | delete (key : Key)

namespace Write

variable {Key Value : Type*}

def key : Write Key Value → Key
  | .put key _ => key
  | .delete key => key

def value : Write Key Value → Option Value
  | .put _ value => some value
  | .delete _ => none

variable [DecidableEq Key]

def apply (map : Key → Option Value) (write : Write Key Value) : Key → Option Value :=
  Function.update map write.key write.value

variable (map : Key → Option Value)

theorem apply_put (key : Key) (value : Value) (other : Key) :
    (put key value).apply map other = if other = key then some value else map other :=
  Function.update_apply map key (some value) other

theorem apply_delete (key other : Key) :
    (delete key).apply map other = if other = key then none else map other :=
  Function.update_apply map key none other

def last (writes : List (Write Key Value)) (key : Key) : Option (Write Key Value) :=
  writes.reverse.find? fun write => write.key = key

/-- What is under a key after the writes: what the last write to it left, or
what was there. -/
def outcome (map : Key → Option Value) (writes : List (Write Key Value)) (key : Key) :
    Option Value :=
  match last writes key with
  | some write => write.value
  | none => map key

theorem foldl_apply (writes : List (Write Key Value)) :
    writes.foldl apply map = outcome map writes := by
  induction writes using List.reverseRecOn with
  | nil => rfl
  | append_singleton writes write ih =>
    funext key
    rw [List.foldl_append, List.foldl_cons, List.foldl_nil, ih, outcome, last, List.reverse_append,
      List.reverse_singleton, List.singleton_append, List.find?_cons, apply]
    by_cases hkey : write.key = key
    · rw [decide_eq_true hkey, ← hkey, Function.update_self]
    · rw [decide_eq_false hkey, Function.update_of_ne (Ne.symm hkey)]
      rfl

end Write

section Keyed

variable {α κ : Type*} [DecidableEq κ] (key : α → κ)

/-- Replace the first element under the key, or add the element at the end. -/
def upsert (x : α) (xs : List α) : List α :=
  if xs.any (fun y => key y = key x) then rewriteFirst (fun y => key y = key x) (fun _ => x) xs
  else xs ++ [x]

def removeKey (k : κ) (xs : List α) : List α := xs.filter fun x => key x ≠ k

def findKey (k : κ) (xs : List α) : Option α := xs.find? fun x => key x = k

variable {key} {x y : α} {xs : List α} {k : κ}

theorem key_of_findKey (hfind : findKey key k xs = some x) : key x = k :=
  of_decide_eq_true (List.find?_some (p := fun x => decide (key x = k)) hfind)

theorem mem_of_findKey (hfind : findKey key k xs = some x) : x ∈ xs :=
  List.mem_of_find?_eq_some hfind

theorem findKey_eq_none : findKey key k xs = none ↔ ∀ x ∈ xs, key x ≠ k := by
  simp [findKey]

theorem findKey_cons : findKey key k (x :: xs) = if key x = k then some x else findKey key k xs := by
  rw [findKey, List.find?_cons]
  by_cases hkey : key x = k <;> simp [hkey, findKey]

theorem upsert_of_findKey_none (hfind : findKey key (key x) xs = none) :
    upsert key x xs = xs ++ [x] := by
  rw [findKey_eq_none] at hfind
  rw [upsert, if_neg]
  simpa using hfind

theorem upsert_of_findKey_some (hfind : findKey key (key x) xs = some y) :
    upsert key x xs = rewriteFirst (fun y => key y = key x) (fun _ => x) xs := by
  rw [upsert, if_pos]
  rw [List.any_eq_true]
  exact ⟨y, mem_of_findKey hfind, decide_eq_true (key_of_findKey hfind)⟩

theorem upsert_cons (x y : α) (xs : List α) :
    upsert key x (y :: xs) = if key y = key x then x :: xs else y :: upsert key x xs := by
  rw [upsert, List.any_cons, rewriteFirst_cons]
  by_cases hkey : key y = key x
  · simp [hkey]
  · simp only [hkey, decide_false, Bool.false_or, if_false, Bool.false_eq_true]
    rw [upsert]
    split <;> rfl

theorem findKey_upsert (x : α) (xs : List α) (k : κ) :
    findKey key k (upsert key x xs) = if key x = k then some x else findKey key k xs := by
  induction xs with
  | nil => exact findKey_cons
  | cons y xs ih =>
    rw [upsert_cons, findKey_cons]
    by_cases hkey : key y = key x
    · rw [if_pos hkey, findKey_cons, hkey]
      split
      next => rfl
      next => rfl
    · rw [if_neg hkey, findKey_cons, ih]
      by_cases hk : key x = k
      · rw [if_pos hk, if_pos hk, if_neg (hk ▸ hkey)]
      · rw [if_neg hk, if_neg hk]

theorem findKey_removeKey (removed k : κ) (xs : List α) :
    findKey key k (removeKey key removed xs) = if k = removed then none else findKey key k xs := by
  by_cases hk : k = removed
  · rw [if_pos hk, findKey_eq_none]
    intro x hx
    rw [hk]
    exact of_decide_eq_true (List.mem_filter.mp hx).2
  · rw [if_neg hk]
    induction xs with
    | nil => rfl
    | cons x xs ih =>
      rw [removeKey, List.filter_cons]
      by_cases hx : key x = removed
      · rw [if_neg (by simp [hx]), findKey_cons, if_neg (by rw [hx]; exact Ne.symm hk)]
        exact ih
      · rw [if_pos (by simp [hx]), findKey_cons, findKey_cons]
        split
        next => rfl
        next => exact ih

theorem removeKey_upsert (x : α) (xs : List α) :
    removeKey key (key x) (upsert key x xs) = removeKey key (key x) xs := by
  induction xs with
  | nil => simp [upsert, removeKey]
  | cons y xs ih =>
    rw [upsert_cons]
    by_cases hkey : key y = key x
    · simp [removeKey, hkey]
    · rw [if_neg hkey, removeKey, removeKey, List.filter_cons_of_pos (by simpa using hkey),
        List.filter_cons_of_pos (by simpa using hkey)]
      exact congrArg _ ih

variable {select : α → Bool}

theorem filter_removeKey_of_ne (hselect : ∀ x, select x = true → key x ≠ k)
    (xs : List α) : (removeKey key k xs).filter select = xs.filter select := by
  rw [removeKey, List.filter_filter]
  apply List.filter_congr
  intro x _
  by_cases hx : select x = true
  · rw [hx, decide_eq_true (hselect x hx)]
    rfl
  · rw [Bool.eq_false_iff.mpr hx, Bool.false_and]

theorem removeKey_of_findKey_none (hfind : findKey key k xs = none) : removeKey key k xs = xs := by
  rw [removeKey, List.filter_eq_self]
  intro x hx
  exact decide_eq_true (findKey_eq_none.mp hfind x hx)

theorem eraseP_eq_removeKey (hdistinct : (xs.map key).Nodup) :
    xs.eraseP (fun x => key x = k) = removeKey key k xs := by
  induction xs with
  | nil => rfl
  | cons x xs ih =>
    rw [List.map_cons, List.nodup_cons] at hdistinct
    by_cases hkey : key x = k
    · rw [List.eraseP_cons_of_pos (by simpa using hkey), removeKey,
        List.filter_cons_of_neg (by simpa using hkey), eq_comm, List.filter_eq_self]
      intro y hy
      rw [decide_eq_true_eq]
      rintro rfl
      exact hdistinct.1 (hkey ▸ List.mem_map_of_mem hy)
    · rw [List.eraseP_cons_of_neg (by simpa using hkey), ih hdistinct.2, removeKey, removeKey,
        List.filter_cons_of_pos (by simpa using hkey)]

theorem filter_upsert (hselect : ∀ y, key y = key x → select y = select x)
    (hx : select x = true) (xs : List α) :
    (upsert key x xs).filter select = upsert key x (xs.filter select) := by
  induction xs with
  | nil =>
    rw [upsert_of_findKey_none rfl, List.filter_nil, upsert_of_findKey_none rfl, List.nil_append,
      List.filter_cons_of_pos hx, List.filter_nil]
  | cons y xs ih =>
    rw [upsert_cons]
    by_cases hkey : key y = key x
    · rw [if_pos hkey, List.filter_cons_of_pos hx,
        List.filter_cons_of_pos ((hselect y hkey).trans hx), upsert_cons, if_pos hkey]
    · rw [if_neg hkey]
      by_cases hy : select y = true
      · rw [List.filter_cons_of_pos hy, List.filter_cons_of_pos hy, ih, upsert_cons, if_neg hkey]
      · rw [List.filter_cons_of_neg hy, List.filter_cons_of_neg hy, ih]

theorem filter_removeKey (select : α → Bool) (xs : List α) :
    (removeKey key k xs).filter select = removeKey key k (xs.filter select) := by
  rw [removeKey, removeKey, List.filter_filter, List.filter_filter]
  apply List.filter_congr
  intro x _
  exact Bool.and_comm _ _

theorem mem_upsert (hy : y ∈ upsert key x xs) : y = x ∨ y ∈ xs := by
  rw [upsert] at hy
  split at hy
  next =>
    rcases of_mem_rewriteFirst hy with hold | ⟨_, _, _, rfl⟩
    · exact Or.inr hold
    · exact Or.inl rfl
  next =>
    rcases List.mem_append.mp hy with hold | hnew
    · exact Or.inr hold
    · exact Or.inl (List.mem_singleton.mp hnew)

theorem mem_upsert_iff (hdistinct : (xs.map key).Nodup) :
    y ∈ upsert key x xs ↔ y = x ∨ (y ∈ xs ∧ key y ≠ key x) := by
  induction xs with
  | nil => simp [upsert]
  | cons z xs ih =>
    rw [List.map_cons, List.nodup_cons] at hdistinct
    rw [upsert_cons]
    by_cases hkey : key z = key x
    · rw [if_pos hkey, List.mem_cons]
      refine or_congr_right ⟨fun hy => ⟨List.mem_cons_of_mem _ hy, fun heq => ?_⟩, ?_⟩
      · exact hdistinct.1 (hkey.trans heq.symm ▸ List.mem_map_of_mem hy)
      · rintro ⟨hy, hne⟩
        rcases List.mem_cons.mp hy with rfl | hrest
        · exact absurd hkey hne
        · exact hrest
    · rw [if_neg hkey, List.mem_cons, ih hdistinct.2, List.mem_cons]
      constructor
      · rintro (rfl | heq | ⟨hrest, hne⟩)
        · exact Or.inr ⟨Or.inl rfl, hkey⟩
        · exact Or.inl heq
        · exact Or.inr ⟨Or.inr hrest, hne⟩
      · rintro (heq | ⟨rfl | hrest, hne⟩)
        · exact Or.inr (Or.inl heq)
        · exact Or.inl rfl
        · exact Or.inr (Or.inr ⟨hrest, hne⟩)

theorem findKey_of_mem (hdistinct : (xs.map key).Nodup) (hx : x ∈ xs) :
    findKey key (key x) xs = some x := by
  induction xs with
  | nil => cases hx
  | cons y xs ih =>
    rw [List.map_cons, List.nodup_cons] at hdistinct
    rw [findKey_cons]
    rcases List.mem_cons.mp hx with rfl | hrest
    · rw [if_pos rfl]
    · rw [if_neg fun heq : key y = key x => hdistinct.1 (heq ▸ List.mem_map_of_mem hrest)]
      exact ih hdistinct.2 hrest

theorem findKey_congr_of_perm {ys : List α} (hdistinct : (xs.map key).Nodup)
    (hperm : xs.Perm ys) : findKey key k xs = findKey key k ys := by
  cases hfind : findKey key k xs with
  | none =>
    refine (findKey_eq_none.mpr fun y hy => ?_).symm
    exact findKey_eq_none.mp hfind y (hperm.mem_iff.mpr hy)
  | some x =>
    have hfound := findKey_of_mem ((hperm.map key).nodup_iff.mp hdistinct)
      (hperm.mem_iff.mp (mem_of_findKey hfind))
    rw [key_of_findKey hfind] at hfound
    exact hfound.symm

theorem map_findKey_congr {β : Type*} {f : α → β} {g : β → κ} {ys : List α}
    (hkey : ∀ x, key x = g (f x)) (hmap : xs.map f = ys.map f) :
    (findKey key k xs).map f = (findKey key k ys).map f := by
  have hfind : ∀ zs : List α, (findKey key k zs).map f =
      (zs.map f).find? fun y => decide (g y = k) := by
    intro zs
    rw [List.find?_map, findKey]
    refine congrArg (fun p => Option.map f (zs.find? p)) (funext fun x => ?_)
    rw [Function.comp_apply, hkey]
  rw [hfind, hfind, hmap]

theorem rewriteFirst_key_eq_map (hdistinct : (xs.map key).Nodup) (rewrite : α → α) :
    rewriteFirst (fun x => key x = k) rewrite xs =
      xs.map fun x => if key x = k then rewrite x else x := by
  induction xs with
  | nil => rfl
  | cons x xs ih =>
    rw [List.map_cons, List.nodup_cons] at hdistinct
    rw [rewriteFirst_cons, List.map_cons]
    by_cases hkey : key x = k
    · rw [if_pos (decide_eq_true hkey), if_pos hkey, List.cons_inj_right, eq_comm]
      conv_rhs => rw [← List.map_id xs]
      apply List.map_congr_left
      intro y hy
      exact if_neg fun heq : key y = k =>
        hdistinct.1 (hkey.trans heq.symm ▸ List.mem_map_of_mem hy)
    · rw [if_neg (by simpa using hkey), if_neg hkey, ih hdistinct.2]

omit [DecidableEq κ] in
theorem rewriteFirst_eq_rewriteWhere_of_key (hdistinct : (xs.map key).Nodup)
    (hselect : ∀ x, select x = true → key x = k) (rewrite : α → α) :
    rewriteFirst select rewrite xs = rewriteWhere select rewrite xs := by
  induction xs with
  | nil => rfl
  | cons x xs ih =>
    rw [List.map_cons, List.nodup_cons] at hdistinct
    rw [rewriteFirst_cons, rewriteWhere_cons]
    split
    · next hx =>
      rw [rewriteWhere_of_none]
      intro y hy
      rw [Bool.eq_false_iff]
      intro hother
      exact hdistinct.1 ((hselect x hx).trans (hselect y hother).symm ▸ List.mem_map_of_mem hy)
    · rw [ih hdistinct.2]

theorem nodup_upsert (hdistinct : (xs.map key).Nodup) : ((upsert key x xs).map key).Nodup := by
  rw [upsert]
  split
  next =>
    rwa [map_rewriteFirst_of_preserved key]
    intro y _ hkey
    exact (of_decide_eq_true hkey).symm
  next hnone =>
    rw [List.map_append, List.map_singleton, List.nodup_append]
    refine ⟨hdistinct, List.nodup_singleton _, ?_⟩
    intro k hk last hlast heq
    rw [List.mem_singleton] at hlast
    obtain ⟨y, hy, rfl⟩ := List.mem_map.mp hk
    exact hnone (List.any_eq_true.mpr ⟨y, hy, decide_eq_true (heq.trans hlast)⟩)

theorem nodup_removeKey (hdistinct : (xs.map key).Nodup) :
    ((removeKey key k xs).map key).Nodup :=
  (List.Sublist.map _ List.filter_sublist).nodup hdistinct

end Keyed

end Foundation
