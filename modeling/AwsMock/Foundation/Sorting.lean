import Mathlib.Data.List.Perm.Basic
import Mathlib.Data.List.Sort
import AwsMock.Foundation.Machine
import AwsMock.Foundation.Paging

/-! # Sorting and pages of sorted lists

A sort is told what comes before what. It promises a sorted list only when that is a strict weak
order of the list's values. A page of a list in one order is a page of the list in the other order
exactly when the keys on the page are the same read from either end.
-/

namespace Foundation

open List Machine

/-! ## Sorts -/

/-- What a comparison has to be on the values of a list before the list can be sorted by it. -/
structure StrictWeakOn {α : Type*} (before : α → α → Bool) (xs : List α) : Prop where
  irrefl : ∀ x ∈ xs, before x x = false
  trans : ∀ x ∈ xs, ∀ y ∈ xs, ∀ z ∈ xs, before x y = true → before y z = true → before x z = true
  tied : ∀ x ∈ xs, ∀ y ∈ xs, ∀ z ∈ xs, before x y = false → before y x = false →
    before y z = false → before z y = false → before x z = false ∧ before z x = false

namespace StrictWeakOn

variable {α : Type*} {before : α → α → Bool} {xs : List α}

theorem nil : StrictWeakOn before [] := by
  refine ⟨?_, ?_, ?_⟩ <;> exact fun _ hmem => absurd hmem List.not_mem_nil

theorem asymm (hweak : StrictWeakOn before xs) {x y : α} (hx : x ∈ xs) (hy : y ∈ xs)
    (hxy : before x y = true) : before y x = false := by
  rw [Bool.eq_false_iff]
  intro hyx
  have hxx := hweak.trans x hx y hy x hx hxy hyx
  rw [hweak.irrefl x hx] at hxx
  cases hxx

theorem not_after_trans (hweak : StrictWeakOn before xs) {x y z : α} (hx : x ∈ xs) (hy : y ∈ xs)
    (hz : z ∈ xs) (hyx : before y x = false) (hzy : before z y = false) :
    before z x = false := by
  rw [Bool.eq_false_iff]
  intro hzx
  cases hxy : before x y with
  | true =>
    have hcycle := hweak.trans z hz x hx y hy hzx hxy
    rw [hzy] at hcycle
    cases hcycle
  | false =>
    cases hyz : before y z with
    | true =>
      have hcycle := hweak.trans y hy z hz x hx hyz hzx
      rw [hyx] at hcycle
      cases hcycle
    | false =>
      have htied := (hweak.tied x hx y hy z hz hxy hyx hyz hzy).2
      rw [hzx] at htied
      cases htied

end StrictWeakOn

/-- A sort with what it promises. Anything may come of a comparison that is no strict weak order. -/
structure Sorter where
  sort {α : Type} (before : α → α → Bool) (xs : List α) : Run (List α)
  sorts {α : Type} {before : α → α → Bool} {xs : List α} (hweak : StrictWeakOn before xs) :
    ∃ ys, sort before xs = .ok ys ∧ ys.Perm xs ∧ ys.Pairwise fun x y => before y x = false

def Sorter.merging : Sorter where
  sort before xs := .ok ((xs.attach.mergeSort fun x y => !before y.1 x.1).map Subtype.val)
  sorts {α before xs} hweak := by
    refine ⟨_, rfl, ?_, ?_⟩
    · have hperm := (List.mergeSort_perm xs.attach fun x y => !before y.1 x.1).map Subtype.val
      rwa [List.attach_map_subtype_val] at hperm
    · rw [List.pairwise_map]
      refine (List.pairwise_mergeSort ?_ ?_ xs.attach).imp ?_
      · rintro ⟨x, hx⟩ ⟨y, hy⟩ ⟨z, hz⟩ hxy hyz
        rw [Bool.not_eq_true'] at hxy hyz ⊢
        exact hweak.not_after_trans hx hy hz hxy hyz
      · rintro ⟨x, hx⟩ ⟨y, hy⟩
        rw [Bool.or_eq_true, Bool.not_eq_true', Bool.not_eq_true']
        cases hxy : before x y with
        | true => exact .inl (hweak.asymm hx hy hxy)
        | false => exact .inr rfl
      · intro x y hxy
        exact Bool.not_eq_true' _ ▸ hxy

/-! ## Pages of sorted lists -/

section Pages

variable {α β κ : Type*} {pageSize pageIndex : Int} {xs ys : List α}

theorem exists_append_page (pageSize pageIndex : Int) (xs : List α) :
    ∃ front rest, xs = front ++ page pageSize pageIndex xs ++ rest ∧
      ∀ before shown after : List β, before.length = front.length →
        shown.length = (page pageSize pageIndex xs).length → after.length = rest.length →
          page pageSize pageIndex (before ++ shown ++ after) = shown := by
  rw [page]
  split
  next hwhole =>
    refine ⟨[], [], (List.append_nil _).symm, fun before shown after hfront _ hrest => ?_⟩
    rw [page, if_pos hwhole, List.length_eq_zero_iff.mp hfront, List.length_eq_zero_iff.mp hrest,
      List.nil_append, List.append_nil]
  next hsize =>
    have hlater : (pageSize * pageIndex).toNat ≤ (pageSize * (pageIndex + 1)).toNat := by
      rw [Int.mul_add]
      omega
    simp only [page, if_neg hsize]
    generalize (pageSize * pageIndex).toNat = start at hlater ⊢
    generalize (pageSize * (pageIndex + 1)).toNat = stop at hlater ⊢
    refine ⟨xs.take start, xs.drop stop, ?_, fun before shown after hfront hshown hrest => ?_⟩
    · have htake : xs.take start = (xs.take stop).take start := by
        rw [List.take_take, Nat.min_eq_left hlater]
      rw [htake, List.take_append_drop, List.take_append_drop]
    · rw [List.length_take] at hfront
      rw [List.length_drop, List.length_take] at hshown
      rw [List.length_drop] at hrest
      rcases Nat.le_total stop xs.length with hstop | hstop
      · rw [List.take_left' (by rw [List.length_append]; omega), List.drop_left' (by omega)]
      · obtain rfl : after = [] := List.length_eq_zero_iff.mp (by omega)
        rw [List.append_nil, List.take_of_length_le (by rw [List.length_append]; omega)]
        rcases Nat.le_total start xs.length with hstart | hstart
        · exact List.drop_left' (by omega)
        · obtain rfl : shown = [] := List.length_eq_zero_iff.mp (by omega)
          exact List.drop_eq_nil_of_le (by rw [List.append_nil]; omega)

theorem perm_append_middle_iff {front rest before after shown : List α} :
    (before ++ shown ++ after).Perm (front ++ shown ++ rest) ↔
      (before ++ after).Perm (front ++ rest) := by
  have hmiddle : ∀ left right : List α, (left ++ shown ++ right).Perm (shown ++ (left ++ right)) :=
    fun left right => by
      rw [← List.append_assoc]
      exact List.perm_append_comm.append_right right
  rw [(hmiddle before after).congr_left, (hmiddle front rest).congr_right]
  exact List.perm_append_left_iff shown

theorem exists_perm_map_eq {key : α → κ} {keys : List κ} (hperm : keys.Perm (xs.map key)) :
    ∃ zs : List α, zs.Perm xs ∧ zs.map key = keys := by
  have hkeys : Forall₂ (fun k x => k = key x) (xs.map key) xs := by
    rw [List.forall₂_map_left_iff]
    exact List.forall₂_same.mpr fun _ _ => rfl
  obtain ⟨zs, hzs, hzsperm⟩ := List.perm_comp_forall₂ hperm hkeys
  refine ⟨zs, hzsperm, ?_⟩
  rw [← List.forall₂_eq_eq_eq, List.forall₂_map_left_iff]
  exact hzs.flip.imp fun _ _ h => h.symm

variable [LinearOrder κ] {key : α → κ}

def ascending (key : α → κ) (xs : List α) : List κ := (xs.map key).insertionSort (· ≤ ·)

theorem ascending_eq_iff {keys : List κ} :
    ascending key xs = keys ↔ keys.Perm (xs.map key) ∧ keys.Pairwise (· ≤ ·) := by
  constructor
  · rintro rfl
    exact ⟨List.perm_insertionSort _ _, List.pairwise_insertionSort _ _⟩
  · rintro ⟨hperm, hsorted⟩
    exact ((List.perm_insertionSort _ _).trans hperm.symm).eq_of_pairwise'
      (List.pairwise_insertionSort _ _) hsorted

theorem exists_ascending_page_iff (hperm : ys.Perm xs) :
    (∃ zs : List α, zs.Perm xs ∧ (zs.map key).Pairwise (· ≤ ·) ∧
        page pageSize pageIndex ys = page pageSize pageIndex zs) ↔
      page pageSize pageIndex (ys.map key) = page pageSize pageIndex (ascending key xs) := by
  constructor
  · rintro ⟨zs, hzs, hsorted, hpage⟩
    rw [ascending_eq_iff.mpr ⟨hzs.map key, hsorted⟩, ← map_page, ← map_page, hpage]
  · intro hpage
    obtain ⟨hkeys, hsorted⟩ := ascending_eq_iff.mp (rfl : ascending key xs = ascending key xs)
    obtain ⟨front, rest, hys, -⟩ := @exists_append_page α α pageSize pageIndex ys
    obtain ⟨frontKeys, restKeys, hsplit, hcut⟩ :=
      @exists_append_page κ α pageSize pageIndex (ascending key xs)
    rw [← hpage, ← map_page] at hsplit hcut
    generalize page pageSize pageIndex ys = shown at hys hsplit hcut ⊢
    subst hys
    -- what is not shown is rearranged, and what is shown stays
    have hothers : (frontKeys ++ restKeys).Perm ((front ++ rest).map key) := by
      have hsame : (frontKeys ++ shown.map key ++ restKeys).Perm
          ((front ++ shown ++ rest).map key) := hsplit ▸ hkeys.trans (hperm.map key).symm
      rw [List.map_append, List.map_append] at hsame
      rw [List.map_append]
      exact perm_append_middle_iff.mp hsame
    obtain ⟨others, hothersPerm, hothersKeys⟩ := exists_perm_map_eq hothers
    obtain ⟨before, after, rfl, rfl, rfl⟩ := List.map_eq_append_iff.mp hothersKeys
    refine ⟨before ++ shown ++ after, ?_, ?_, ?_⟩
    · exact (perm_append_middle_iff.mpr hothersPerm).trans hperm
    · rw [List.map_append, List.map_append, ← hsplit]
      exact hsorted
    · rw [hcut _ _ _ (List.length_map _).symm (List.length_map _).symm (List.length_map _).symm]

theorem exists_ascending_page_iff_of_descending (hperm : ys.Perm xs)
    (hdescending : ys.Pairwise fun x y => key y ≤ key x) :
    (∃ zs : List α, zs.Perm xs ∧ (zs.map key).Pairwise (· ≤ ·) ∧
        page pageSize pageIndex ys = page pageSize pageIndex zs) ↔
      page pageSize pageIndex (ascending key xs).reverse =
        page pageSize pageIndex (ascending key xs) := by
  have hreverse : ascending key xs = (ys.map key).reverse := by
    refine ascending_eq_iff.mpr ⟨(List.reverse_perm _).trans (hperm.map key), ?_⟩
    rwa [List.pairwise_reverse, List.pairwise_map]
  rw [exists_ascending_page_iff hperm]
  nth_rewrite 2 [hreverse]
  rw [List.reverse_reverse]

end Pages

/-! ## The last of a sorted list -/

section Last

variable {α κ : Type*} [LinearOrder κ] {key : α → κ}

theorem strictWeakOn_key (key : α → κ) (xs : List α) :
    StrictWeakOn (fun x y => decide (key x < key y)) xs := by
  refine ⟨fun x _ => ?_, fun x _ y _ z _ hxy hyz => ?_, fun x _ y _ z _ hxy hyx hyz hzy => ?_⟩
  · rw [decide_eq_false_iff_not]
    exact lt_irrefl _
  · rw [decide_eq_true_eq] at hxy hyz ⊢
    exact hxy.trans hyz
  · rw [decide_eq_false_iff_not, not_lt] at hxy hyx hyz hzy
    rw [decide_eq_false_iff_not, decide_eq_false_iff_not, not_lt, not_lt]
    exact ⟨hyz.trans hxy, hyx.trans hzy⟩

theorem filter_le_countP_eq_take {ys : List α} (hsorted : ys.Pairwise fun x y => key x < key y)
    (kept : Nat) :
    (ys.filter fun y => decide (kept ≤ ys.countP fun z => decide (key y < key z))) =
      ys.take (ys.length - kept) := by
  induction ys with
  | nil => rw [List.filter_nil, List.take_nil]
  | cons x ys ih =>
    obtain ⟨hfirst, hrest⟩ := List.pairwise_cons.mp hsorted
    have hall : (x :: ys).countP (fun z => decide (key x < key z)) = ys.length := by
      rw [List.countP_cons_of_neg (by simp), List.countP_eq_length]
      exact fun z hz => decide_eq_true (hfirst z hz)
    have hsame : ∀ y ∈ ys, (x :: ys).countP (fun z => decide (key y < key z)) =
        ys.countP fun z => decide (key y < key z) := by
      intro y hy
      refine List.countP_cons_of_neg ?_
      rw [decide_eq_true_eq, not_lt]
      exact (hfirst y hy).le
    have hfilter : (ys.filter fun y =>
        decide (kept ≤ (x :: ys).countP fun z => decide (key y < key z))) =
          ys.take (ys.length - kept) := by
      rw [← ih hrest]
      refine List.filter_congr fun y hy => ?_
      rw [hsame y hy]
    by_cases hkept : kept ≤ ys.length
    · rw [List.filter_cons_of_pos (by rw [hall, decide_eq_true hkept]), hfilter,
        List.length_cons, Nat.succ_sub hkept, List.take_succ_cons]
    · rw [List.filter_cons_of_neg (by simp [hall, hkept]), hfilter,
        Nat.sub_eq_zero_of_le (by omega), List.length_cons, Nat.sub_eq_zero_of_le (by omega),
        List.take_zero, List.take_zero]

end Last

end Foundation
