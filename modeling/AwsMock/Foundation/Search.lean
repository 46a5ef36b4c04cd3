import Mathlib.Data.List.Infix

/-! # The place of a pattern

Where a pattern occurs first in a text, and what it means that this is the end of the text.
-/

namespace Foundation

section Search

variable {α : Type*} {pattern text : List α}

def OnlyAtEnd (pattern text : List α) : Prop :=
  pattern <:+ text ∧ ¬pattern <:+: text.dropLast

theorem onlyAtEnd_iff_of_starts (hpattern : pattern ≠ []) (hstarts : pattern <+: text) :
    OnlyAtEnd pattern text ↔ text.length ≤ pattern.length := by
  constructor
  · rintro ⟨-, hnot⟩
    refine Nat.le_of_not_lt fun hlonger => hnot (List.IsPrefix.isInfix ?_)
    refine List.prefix_of_prefix_length_le hstarts text.dropLast_prefix ?_
    rw [List.length_dropLast]
    omega
  · intro hshort
    obtain rfl := hstarts.eq_of_length_le hshort
    refine ⟨List.suffix_refl _, fun hoccurs => ?_⟩
    have hlength := hoccurs.length_le
    have hpositive := List.length_pos_iff.mpr hpattern
    rw [List.length_dropLast] at hlength
    omega

theorem onlyAtEnd_cons_iff {c : α} (hpattern : pattern ≠ []) (hstarts : ¬pattern <+: c :: text) :
    OnlyAtEnd pattern (c :: text) ↔ OnlyAtEnd pattern text := by
  have hsuffix : pattern <:+ c :: text ↔ pattern <:+ text := by
    rw [List.suffix_cons_iff]
    refine or_iff_right fun heq => hstarts ?_
    rw [heq]
  unfold OnlyAtEnd
  rw [hsuffix]
  refine and_congr_right fun hends => not_congr ?_
  have hnonempty : text ≠ [] := by
    rintro rfl
    exact hpattern (List.suffix_nil.mp hends)
  rw [List.dropLast_cons_of_ne_nil hnonempty, List.infix_cons_iff]
  refine or_iff_right fun hstart => hstarts (hstart.trans ?_)
  rw [← List.dropLast_cons_of_ne_nil hnonempty]
  exact List.dropLast_prefix _

variable [DecidableEq α]

def position (pattern : List α) : List α → Option Nat
  | [] => if pattern = [] then some 0 else none
  | c :: text =>
    if pattern <+: c :: text then some 0 else (position pattern text).map (· + 1)

theorem position_eq_none_iff : position pattern text = none ↔ ¬pattern <:+: text := by
  induction text with
  | nil =>
    rw [position, List.infix_nil]
    split
    next hempty => simp [hempty]
    next hempty => simp [hempty]
  | cons c text ih =>
    rw [position, List.infix_cons_iff]
    split
    next hstarts => simp [hstarts]
    next hstarts => rw [Option.map_eq_none_iff, ih, or_iff_right hstarts]

theorem position_add_length_le {n : Nat} (hfound : position pattern text = some n) :
    n + pattern.length ≤ text.length := by
  induction text generalizing n with
  | nil =>
    rw [position] at hfound
    split at hfound
    next hempty =>
      cases hfound
      simp [hempty]
    next => cases hfound
  | cons c text ih =>
    rw [position] at hfound
    split at hfound
    next hstarts =>
      cases hfound
      rw [Nat.zero_add]
      exact hstarts.length_le
    next =>
      obtain ⟨m, hm, rfl⟩ := Option.map_eq_some_iff.mp hfound
      have hrest := ih hm
      rw [List.length_cons]
      omega

theorem not_position_lt_iff {n : Nat} (hpattern : pattern ≠ [])
    (hfound : position pattern text = some n) :
    ¬n < text.length - pattern.length ↔ OnlyAtEnd pattern text := by
  induction text generalizing n with
  | nil =>
    rw [position, if_neg hpattern] at hfound
    cases hfound
  | cons c text ih =>
    rw [position] at hfound
    split at hfound
    next hstarts =>
      cases hfound
      rw [onlyAtEnd_iff_of_starts hpattern hstarts]
      omega
    next hstarts =>
      obtain ⟨m, hm, rfl⟩ := Option.map_eq_some_iff.mp hfound
      have hwithin := position_add_length_le hm
      rw [onlyAtEnd_cons_iff hpattern hstarts, ← ih hm, List.length_cons]
      omega

end Search

end Foundation
