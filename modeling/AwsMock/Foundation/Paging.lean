import Mathlib.Data.List.Basic

/-! # Pages of a list

A page of a given size is a window of a list; a size that is not positive means
the whole list. A page is the whole list only when nothing is cut off.
-/

namespace Foundation

variable {α β : Type*}

/-- The window `[pageSize * pageIndex, pageSize * (pageIndex + 1))` of a list. -/
def page (pageSize pageIndex : Int) (xs : List α) : List α :=
  if pageSize ≤ 0 then xs
  else (xs.take (pageSize * (pageIndex + 1)).toNat).drop (pageSize * pageIndex).toNat

/-- Whether a page of a list of the given length cuts nothing off. -/
def PageIsWhole (pageSize pageIndex : Int) (length : Nat) : Prop :=
  pageSize ≤ 0 ∨ length = 0 ∨ pageIndex = 0 ∧ (length : Int) ≤ pageSize

instance (pageSize pageIndex : Int) (length : Nat) :
    Decidable (PageIsWhole pageSize pageIndex length) :=
  inferInstanceAs (Decidable (_ ∨ _ ∨ _ ∧ _))

variable {pageSize pageIndex : Int} {xs : List α}

theorem map_page (f : α → β) : (page pageSize pageIndex xs).map f =
    page pageSize pageIndex (xs.map f) := by
  rw [page, page]
  split
  · rfl
  · rw [List.map_drop, List.map_take]

theorem page_sublist : (page pageSize pageIndex xs).Sublist xs := by
  rw [page]
  split
  · exact List.Sublist.refl xs
  · exact (List.drop_sublist _ _).trans (List.take_sublist _ _)

variable (pageSize pageIndex xs) in
theorem length_page_le : (page pageSize pageIndex xs).length ≤ xs.length :=
  page_sublist.length_le

theorem length_page_eq_iff :
    (page pageSize pageIndex xs).length = xs.length ↔
      PageIsWhole pageSize pageIndex xs.length := by
  rw [PageIsWhole, page]
  split
  next hsize => exact ⟨fun _ => Or.inl hsize, fun _ => rfl⟩
  next hsize =>
    rw [List.length_drop, List.length_take]
    rcases Int.lt_trichotomy pageIndex 0 with hindex | rfl | hindex
    · have hend : pageSize * (pageIndex + 1) ≤ 0 :=
        Int.mul_nonpos_of_nonneg_of_nonpos (by omega) (by omega)
      omega
    · rw [Int.mul_zero, Int.zero_add, Int.mul_one]
      omega
    · have hstart : 0 < pageSize * pageIndex := Int.mul_pos (by omega) hindex
      omega

theorem page_eq_self_iff :
    page pageSize pageIndex xs = xs ↔ PageIsWhole pageSize pageIndex xs.length := by
  rw [← length_page_eq_iff]
  exact ⟨congrArg List.length, page_sublist.eq_of_length⟩

theorem page_eq_iff {ys : List α} (hlength : xs.length = ys.length) :
    page pageSize pageIndex xs = ys ↔ xs = ys ∧ PageIsWhole pageSize pageIndex ys.length := by
  constructor
  · intro heq
    have hwhole : PageIsWhole pageSize pageIndex xs.length := by
      rw [← length_page_eq_iff, heq, hlength]
    rw [page_eq_self_iff.mpr hwhole] at heq
    exact ⟨heq, hlength ▸ hwhole⟩
  · rintro ⟨rfl, hwhole⟩
    exact page_eq_self_iff.mpr hwhole

theorem page_eq_take_drop (hsize : 0 < pageSize) (hindex : 0 ≤ pageIndex) :
    page pageSize pageIndex xs = (xs.drop (pageSize * pageIndex).toNat).take pageSize.toNat := by
  have hstart : 0 ≤ pageSize * pageIndex := Int.mul_nonneg (Int.le_of_lt hsize) hindex
  rw [page, if_neg (by omega), List.drop_take]
  congr 1
  rw [Int.mul_add, Int.mul_one]
  omega

/-! ## All pages together -/

/-- The first pages are disjoint and not too long, and they are the whole list when there are
enough of them. -/
structure ArePages (pageSize : Int) (pages : Nat → List α) (count : Nat) (whole : List α) :
    Prop where
  length_le : ∀ i < count, ((pages i).length : Int) ≤ pageSize
  disjoint : ∀ i < count, ∀ j < count, i ≠ j → List.Disjoint (pages i) (pages j)
  whole : (whole.length : Int) ≤ pageSize * count → (List.range count).flatMap pages = whole

theorem flatMap_page (hsize : 0 < pageSize) (xs : List α) (count : Nat) :
    (List.range count).flatMap (fun pageIndex : Nat => page pageSize pageIndex xs) =
      xs.take (pageSize.toNat * count) := by
  induction count with
  | zero => rfl
  | succ count ih =>
    have hstart : (pageSize * count).toNat = pageSize.toNat * count := by
      rw [Int.toNat_mul (Int.le_of_lt hsize) (Int.natCast_nonneg count), Int.toNat_natCast]
    rw [List.range_succ, List.flatMap_append, ih, List.flatMap_singleton,
      page_eq_take_drop hsize (Int.natCast_nonneg count), hstart, Nat.mul_succ, List.take_add]

theorem arePages_of_first {pages : Nat → List α} {whole : List α}
    (hfirst : pages 0 = whole) (hrest : ∀ i, 0 < i → pages i = [])
    (hlength : (whole.length : Int) ≤ pageSize) (count : Nat) :
    ArePages pageSize pages count whole := by
  have hempty : ∀ count, (List.range count).flatMap (fun i => pages (i + 1)) = [] := by
    intro count
    exact List.flatMap_eq_nil_iff.mpr fun i _ => hrest (i + 1) (Nat.succ_pos i)
  refine ⟨fun i _ => ?_, fun i _ j _ hne => ?_, fun henough => ?_⟩
  · rcases Nat.eq_zero_or_pos i with rfl | hi
    · rw [hfirst]
      exact hlength
    · rw [hrest i hi, List.length_nil]
      omega
  · rcases Nat.eq_zero_or_pos i with rfl | hi
    · rw [hrest j (by omega)]
      exact List.disjoint_nil_right _
    · rw [hrest i hi]
      exact List.disjoint_nil_left _
  · cases count with
    | zero =>
      change (whole.length : Int) ≤ pageSize * 0 at henough
      rw [Int.mul_zero] at henough
      exact (List.length_eq_zero_iff.mp (by omega)).symm
    | succ count =>
      rw [List.range_succ_eq_map, List.flatMap_cons, List.flatMap_map]
      change pages 0 ++ (List.range count).flatMap (fun i => pages (i + 1)) = whole
      rw [hempty, List.append_nil, hfirst]

end Foundation
